import MeshsatHub.Oob.Replay

/-!
# The replay window over whole histories

The window in the widths of the code, used call after call and stored in between in two signed
columns, is the window of `Window.accept`.
-/

namespace MeshsatHub.Oob
open List Option

/-- The window as `replay.go` holds it. -/
structure WindowState where
  high : UInt32
  bits : UInt64

def WindowState.accept (w : WindowState) (counter : UInt32) : Bool × WindowState :=
  if counter = 0 then (false, w)
  else if w.high < counter then
    let shift := (counter - w.high).toUInt64
    (true, ⟨counter, (if 64 ≤ shift then 0 else w.bits <<< shift) ||| 1⟩)
  else
    let diff := (w.high - counter).toUInt64
    if 64 ≤ diff then (false, w)
    else if w.bits &&& 1 <<< diff ≠ 0 then (false, w)
    else (true, ⟨w.high, w.bits ||| 1 <<< diff⟩)

/-- The columns that `SetOOBReplayWindow` writes. -/
def WindowState.columns (w : WindowState) : Int64 × Int64 :=
  (w.high.toUInt64.toInt64, w.bits.toInt64)

def windowState (columns : Int64 × Int64) : WindowState :=
  let high := if columns.1 < 0 ∨ 0xFFFFFFFF < columns.1 then 0 else columns.1
  ⟨high.toUInt64.toUInt32, columns.2.toUInt64⟩

/-- What happens to a window: a counter, or it is stored and loaded. -/
inductive Use where
  | accept (counter : UInt32)
  | reload

structure Used where
  window : WindowState
  accepted : List UInt32

def Used.use (s : Used) : Use → Used
  | .accept counter =>
    let (fresh, window) := s.window.accept counter
    ⟨window, if fresh then counter :: s.accepted else s.accepted⟩
  | .reload => { s with window := windowState s.window.columns }

/-- A window that starts from zero, after its uses. -/
def used (uses : List Use) : Used := uses.foldl Used.use ⟨⟨0, 0⟩, []⟩

def highest (counters : List UInt32) : Nat := (counters.map UInt32.toNat).foldr max 0

/-- Exactly the counters that were accepted are marked, among the 64 below the highest. -/
structure Window.Records (w : Window) (accepted : List UInt32) : Prop where
  high : w.high = highest accepted
  marks : ∀ c : UInt32, c.toNat ≤ w.high → w.high - c.toNat < 64 →
    (w.bits.getLsbD (w.high - c.toNat) = true ↔ c ∈ accepted)
  zero : 0 ∉ accepted

variable {w w' : Window} {accepted : List UInt32} {counter : UInt32}

theorem le_highest (h : counter ∈ accepted) : counter.toNat ≤ highest accepted := by
  induction accepted with
  | nil => cases h
  | cons c accepted ih =>
    obtain rfl | h := mem_cons.1 h
    · exact Nat.le_max_left _ _
    · exact (ih h).trans (Nat.le_max_right _ _)

theorem Window.Records.isSome_accept (h : w.Records accepted) :
    (w.accept counter.toNat).isSome ↔ counter ≠ 0 ∧ counter ∉ accepted ∧
      (w.high < counter.toNat ∨ w.high - counter.toNat < 64) := by
  have hzero : counter.toNat = 0 ↔ counter = 0 := UInt32.toNat_inj (b := 0)
  unfold Window.accept
  split
  · next hc => simp [hzero.1 hc]
  · next hc =>
    split
    · next habove =>
      have hfresh : counter ∉ accepted := fun hmem =>
        Nat.not_le.2 habove (h.high ▸ le_highest hmem)
      simp [mt hzero.2 hc, hfresh, habove]
    · next habove =>
      have hbelow := h.marks counter (Nat.le_of_not_lt habove)
      dsimp only
      split
      · next hold => simp [habove, Nat.not_lt.2 hold]
      · next hrecent =>
        have hrecent := Nat.lt_of_not_le hrecent
        have hmarked := (and_twoPow_ne_zero hrecent).trans (hbelow hrecent)
        split
        · next hmark => simp [hmarked.1 hmark]
        · next hmark => simp [mt hmarked.2 hmark, mt hzero.2 hc, hrecent]

theorem Window.Records.accept (h : w.Records accepted)
    (haccept : w.accept counter.toNat = some w') : w'.Records (counter :: accepted) := by
  have hfresh := h.isSome_accept.1 (isSome_iff_exists.2 ⟨w', haccept⟩)
  refine ⟨?_, fun c hc hrecent => ?_, not_mem_cons_of_ne_of_not_mem hfresh.1.symm h.zero⟩
  · rw [Window.high_accept haccept, h.high]
    rfl
  · rw [Window.mark_accept haccept hc hrecent, UInt32.toNat_inj, mem_cons]
    refine or_congr_right ⟨fun hmark => ?_, fun hmem => ?_⟩
    · exact (h.marks c hmark.1 (BitVec.lt_of_getLsbD hmark.2)).1 hmark.2
    · have hle : c.toNat ≤ w.high := h.high ▸ le_highest hmem
      have hhigh := Window.high_accept haccept
      exact ⟨hle, (h.marks c hle (by omega)).2 hmem⟩

def WindowState.view (w : WindowState) : Window := ⟨w.high.toNat, w.bits.toBitVec⟩

theorem toNat_gap {a b : UInt32} (h : b ≤ a) : (a - b).toUInt64.toNat = a.toNat - b.toNat := by
  rw [UInt32.toNat_toUInt64, UInt32.toNat_sub_of_le _ _ h]

theorem toBitVec_shift (x : UInt64) {n : UInt64} (h : n.toNat < 64) :
    (x <<< n).toBitVec = x.toBitVec <<< n.toNat := by
  rw [UInt64.toBitVec_shiftLeft, BitVec.shiftLeft_eq', BitVec.toNat_umod]
  exact congrArg _ (Nat.mod_eq_of_lt h)

theorem WindowState.view_accept (w : WindowState) (counter : UInt32) :
    (w.accept counter).1 = (w.view.accept counter.toNat).isSome ∧
      (w.accept counter).2.view = (w.view.accept counter.toNat).getD w.view := by
  have hzero : counter = 0 ↔ counter.toNat = 0 := (UInt32.toNat_inj (b := 0)).symm
  unfold WindowState.accept Window.accept
  by_cases hc : counter = 0
  · rw [if_pos hc, if_pos (hzero.1 hc)]
    exact ⟨rfl, rfl⟩
  rw [if_neg hc, if_neg (mt hzero.2 hc)]
  by_cases habove : w.high < counter
  · have hgap := toNat_gap (UInt32.le_of_lt habove)
    rw [if_pos habove, if_pos (show w.view.high < counter.toNat from habove)]
    refine ⟨rfl, ?_⟩
    have hwide : 64 ≤ (counter - w.high).toUInt64 ↔ 64 ≤ counter.toNat - w.high.toNat := by
      rw [UInt64.le_iff_toNat_le, hgap]
      rfl
    by_cases hfar : 64 ≤ counter.toNat - w.high.toNat
    · simp only [hwide, hfar, if_true, WindowState.view, getD_some]
      rfl
    · simp only [hwide, hfar, if_false, WindowState.view, getD_some,
        UInt64.toBitVec_or, toBitVec_shift w.bits (hgap ▸ Nat.lt_of_not_le hfar), hgap]
      rfl
  · have hgap : (w.high - counter).toUInt64.toNat = w.view.high - counter.toNat :=
      toNat_gap (UInt32.not_lt.1 habove)
    have hwide : 64 ≤ (w.high - counter).toUInt64 ↔ 64 ≤ w.view.high - counter.toNat := by
      rw [UInt64.le_iff_toNat_le, hgap]
      rfl
    rw [if_neg habove, if_neg (show ¬ w.view.high < counter.toNat from habove)]
    by_cases hfar : 64 ≤ w.view.high - counter.toNat
    · rw [if_pos (hwide.2 hfar), if_pos hfar]
      exact ⟨rfl, rfl⟩
    rw [if_neg (mt hwide.1 hfar), if_neg hfar]
    have hone : (1 <<< (w.high - counter).toUInt64 : UInt64).toBitVec =
        BitVec.twoPow 64 (w.view.high - counter.toNat) := by
      rw [toBitVec_shift 1 (hgap ▸ Nat.lt_of_not_le hfar), hgap]
      rfl
    have hmark : w.bits &&& 1 <<< (w.high - counter).toUInt64 ≠ 0 ↔
        w.view.bits &&& BitVec.twoPow 64 (w.view.high - counter.toNat) ≠ 0 := by
      rw [← hone, ne_eq, ← UInt64.toBitVec_inj]
      rfl
    by_cases hset : w.bits &&& 1 <<< (w.high - counter).toUInt64 ≠ 0
    · rw [if_pos hset, if_pos (hmark.1 hset)]
      exact ⟨rfl, rfl⟩
    · rw [if_neg hset, if_neg (mt hmark.2 hset), ← hone]
      exact ⟨rfl, rfl⟩

theorem windowState_columns (w : WindowState) : windowState w.columns = w := by
  have hbound := w.high.toNat_lt
  have hvalue : w.high.toUInt64.toInt64.toInt = w.high.toNat :=
    BitVec.toInt_eq_toNat_of_lt (show 2 * w.high.toUInt64.toNat < 2 ^ 64 by
      rw [UInt32.toNat_toUInt64]
      omega)
  have hrange : ¬ (w.columns.1 < 0 ∨ 0xFFFFFFFF < w.columns.1) := by
    rw [Int64.lt_iff_toInt_lt, Int64.lt_iff_toInt_lt, WindowState.columns, hvalue,
      show (0 : Int64).toInt = 0 from rfl, show (0xFFFFFFFF : Int64).toInt = 4294967295 from rfl]
    omega
  have hhigh : w.columns.1.toUInt64.toUInt32 = w.high := by
    rw [WindowState.columns, UInt64.toUInt64_toInt64, UInt32.toUInt32_toUInt64]
  rw [windowState, if_neg hrange]
  exact congr (congrArg WindowState.mk hhigh) (UInt64.toUInt64_toInt64 w.bits)

def Used.Sound (s : Used) : Prop := s.window.view.Records s.accepted ∧ s.accepted.Nodup

theorem Used.Sound.use {s : Used} (h : s.Sound) (u : Use) : (s.use u).Sound := by
  obtain ⟨hrecords, hnodup⟩ := h
  cases u with
  | reload =>
    rw [Used.use, windowState_columns]
    exact ⟨hrecords, hnodup⟩
  | accept counter =>
    obtain ⟨hfresh, hview⟩ := s.window.view_accept counter
    simp only [Used.use, Used.Sound, hfresh, hview]
    cases haccept : s.window.view.accept counter.toNat with
    | none => exact ⟨hrecords, hnodup⟩
    | some w =>
      have hsome := hrecords.isSome_accept.1 (isSome_iff_exists.2 ⟨w, haccept⟩)
      exact ⟨hrecords.accept haccept, nodup_cons.2 ⟨hsome.2.1, hnodup⟩⟩

theorem sound_used (uses : List Use) : (used uses).Sound := by
  have hzero : Used.Sound ⟨⟨0, 0⟩, []⟩ :=
    ⟨⟨rfl, fun c _ _ => by simp [WindowState.view], not_mem_nil⟩, nodup_nil⟩
  exact List.foldlRecOn uses Used.use hzero fun s hs u _ => hs.use u

/-- After every history of counters, stores and loads, the window takes exactly the counters
that are not zero, were not taken before and are above the highest or less than 64 below it;
none has been taken twice, and the columns keep the window. -/
theorem replay_window_exact (uses : List Use) :
    (∀ c : UInt32, ((used uses).window.accept c).1 = true ↔ c ≠ 0 ∧ c ∉ (used uses).accepted ∧
      (highest (used uses).accepted < c.toNat ∨
        highest (used uses).accepted - c.toNat < 64)) ∧
    (used uses).accepted.Nodup ∧
    windowState (used uses).window.columns = (used uses).window := by
  obtain ⟨hrecords, hnodup⟩ := sound_used uses
  refine ⟨fun c => ?_, hnodup, windowState_columns _⟩
  rw [(WindowState.view_accept _ c).1, ← hrecords.high]
  exact hrecords.isSome_accept

end MeshsatHub.Oob
