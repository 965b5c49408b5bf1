import Mathlib
import MeshsatHub.Foundations.Interleaving

/-!
# Replay protection of out-of-band frames

The sliding window of `internal/oob/replay.go`, and `HandleInbound` for the frames of one pairing.
The write is not conditional, so two calls that read the same window both accept. The counters are
only subtracted from a larger one, so they are natural numbers.
-/

namespace MeshsatHub.Oob
open Interleaving Runs List

/-- The highest counter seen and the 64 below it. -/
structure Window where
  high : Nat
  bits : BitVec 64
  deriving DecidableEq

def Window.accept (w : Window) (counter : Nat) : Option Window :=
  if counter = 0 then none
  else if w.high < counter then
    let shift := counter - w.high
    some ⟨counter, (if 64 ≤ shift then 0 else w.bits <<< shift) ||| 1⟩
  else
    let diff := w.high - counter
    if 64 ≤ diff then none
    else if w.bits &&& BitVec.twoPow 64 diff ≠ 0 then none
    else some ⟨w.high, w.bits ||| BitVec.twoPow 64 diff⟩

def Window.Remembers (w : Window) (counter : Nat) : Prop :=
  counter ≤ w.high ∧ (w.high - counter < 64 → w.bits.getLsbD (w.high - counter) = true)

variable {w w' : Window} {counter i : Nat}

theorem and_twoPow_ne_zero {x : BitVec 64} (h : i < 64) :
    x &&& BitVec.twoPow 64 i ≠ 0 ↔ x.getLsbD i := by
  rw [BitVec.and_twoPow]
  cases hbit : x.getLsbD i with
  | false => simp
  | true =>
    simp only [if_true, ne_eq, iff_true]
    intro hzero
    have hget := congrArg (fun y : BitVec 64 => y.getLsbD i) hzero
    simp [h] at hget

theorem Window.Remembers.refused (h : w.Remembers counter) : w.accept counter = none := by
  unfold Window.accept
  split
  · rfl
  · rw [if_neg (Nat.not_lt.2 h.1)]
    dsimp only
    split
    · rfl
    · next hdiff =>
      have hbit := h.2 (Nat.lt_of_not_le hdiff)
      rw [if_pos ((and_twoPow_ne_zero (Nat.lt_of_not_le hdiff)).2 hbit)]

section
variable (h : w.accept counter = some w')
include h

namespace Window

theorem high_accept : w'.high = max counter w.high := by
  unfold accept at h
  grind

theorem mark_accept {c : Nat} (hc : c ≤ w'.high) (hrecent : w'.high - c < 64) :
    w'.bits.getLsbD (w'.high - c) ↔ c = counter ∨ c ≤ w.high ∧ w.bits.getLsbD (w.high - c) := by
  unfold accept at h
  split at h
  · cases h
  · split at h
    · next hhigh =>
      cases h
      dsimp only at hc hrecent ⊢
      have hone : (1 : BitVec 64).getLsbD (counter - c) = decide (c = counter) := by
        have hone : (1 : BitVec 64) = 1#64 := rfl
        rw [hone, BitVec.getLsbD_one]
        simp
        omega
      rw [BitVec.getLsbD_or, hone, Bool.or_eq_true, decide_eq_true_eq, or_comm]
      apply or_congr_right
      by_cases hbelow : c ≤ w.high
      · have hindex : counter - c - (counter - w.high) = w.high - c := by omega
        have hshift : ¬ counter - c < counter - w.high := by omega
        rw [if_neg (by omega), BitVec.getLsbD_shiftLeft, hindex]
        simp [hrecent, hshift, hbelow]
      · have hshift : counter - c < counter - w.high := by omega
        split <;> simp [hbelow, BitVec.getLsbD_shiftLeft, hshift]
    · next hhigh =>
      dsimp only at h
      split at h
      · cases h
      · next hdiff =>
        split at h
        · cases h
        · cases h
          have hplace : w.high - counter = w.high - c ↔ c = counter := by
            dsimp only at hc
            omega
          rw [BitVec.getLsbD_or, BitVec.getLsbD_twoPow, Bool.or_eq_true, or_comm]
          simp [hplace, Nat.lt_of_not_le hdiff, show c ≤ w.high from hc]

theorem accept_some : w'.Remembers counter ∧ ∀ c, w.Remembers c → w'.Remembers c := by
  have hhigh := high_accept h
  have hmark (c : Nat) := mark_accept h (c := c)
  refine ⟨⟨by omega, fun hlt => (hmark _ (by omega) hlt).2 (.inl rfl)⟩, fun c hc => ?_⟩
  have hle : c ≤ w'.high := by
    have := hc.1
    omega
  exact ⟨hle, fun hlt => (hmark c hle hlt).2 (.inr ⟨hc.1, hc.2 (by omega)⟩)⟩

end Window

end

structure Inbound where
  row : Window
  accepted : List Nat

inductive Receipt where
  /-- Accepted, before `SetOOBReplayWindow`. -/
  | write (w : Window)
  | returned
  deriving DecidableEq

/-- Read the row and run `Accept` on what it says. -/
def handleInbound (g : Inbound) (counter : Nat) : Option (Inbound × Receipt) :=
  match g.row.accept counter with
  | some w => some ({ g with accepted := g.accepted ++ [counter] }, .write w)
  | none => some (g, .returned)

def setOOBReplayWindow (g : Inbound) (l : Receipt) (_ : Unit) : Option (Inbound × Receipt) :=
  match l with
  | .write w => some ({ g with row := w }, .returned)
  | .returned => none

def receipts : Program Inbound Receipt Nat Unit where
  start := handleInbound
  perform := setOOBReplayWindow

/-- A pairing under which nothing has arrived. -/
def freshPairing : System Inbound Receipt := ⟨⟨⟨0, 0⟩, []⟩, []⟩

/-- The condition on a step: a call reads the row when no other call has still to write
it, unless the window it reads refuses the counter. -/
def serial (s : System Inbound Receipt) : Event Nat Unit → Bool
  | .start counter => (s.calls.all fun l => l = .returned) || (s.shared.row.accept counter).isNone
  | .act _ _ => true

structure Guarded (s : System Inbound Receipt) : Prop where
  once : s.shared.accepted.Nodup
  writes : ∀ w, .write w ∈ s.calls → ∀ c ∈ s.shared.accepted, w.Remembers c
  row : (∀ c ∈ s.shared.accepted, s.shared.row.Remembers c) ∨ ∃ w, .write w ∈ s.calls

variable {s t : System Inbound Receipt}

theorem Guarded.started (h : Guarded s) (hok : serial s (.start counter))
    (hstep : step receipts s (.start counter) = some t) : Guarded t := by
  cases haccept : s.shared.row.accept counter with
  | none =>
    obtain rfl : t = ⟨s.shared, s.calls ++ [.returned]⟩ := by
      simpa [step, receipts, handleInbound, haccept] using hstep.symm
    refine ⟨h.once, fun w hw => h.writes w (by simpa using hw), h.row.imp_right ?_⟩
    exact fun ⟨w, hw⟩ => ⟨w, mem_append_left _ hw⟩
  | some w =>
    obtain rfl : t = ⟨{ s.shared with accepted := s.shared.accepted ++ [counter] },
        s.calls ++ [.write w]⟩ := by
      simpa [step, receipts, handleInbound, haccept] using hstep.symm
    -- nobody else has still to write, so the row remembers everything
    have hreturned : ∀ l ∈ s.calls, l = .returned := by
      simpa [serial, haccept] using hok
    have hrow : ∀ c ∈ s.shared.accepted, s.shared.row.Remembers c := by
      apply h.row.resolve_right
      rintro ⟨v, hv⟩
      cases hreturned _ hv
    obtain ⟨hcounter, hkept⟩ := Window.accept_some haccept
    have hwrite : ∀ c ∈ s.shared.accepted ++ [counter], w.Remembers c :=
      all_mem_snoc (fun c hc => hkept c (hrow c hc)) hcounter
    refine ⟨?_, ?_, .inr ⟨w, by simp⟩⟩
    · refine nodup_append.2 ⟨h.once, nodup_singleton _, ?_⟩
      rintro c hc _ hmem rfl
      rw [mem_singleton.1 hmem] at hc
      cases (hrow counter hc).refused.symm.trans haccept
    · intro v hv
      obtain hv | hv := mem_append.1 hv
      · cases hreturned _ hv
      · cases mem_singleton.1 hv
        exact hwrite

theorem Guarded.written (h : Guarded s) (hstep : step receipts s (.act i ()) = some t) :
    Guarded t := by
  obtain _ | ⟨_, _, l, g, l', hl, hperform⟩ := step_cases hstep
  cases l with cases hperform
  | write w =>
    have hmem := mem_of_getElem? hl
    refine ⟨h.once, fun v hv => ?_, .inl (h.writes w hmem)⟩
    rcases mem_or_eq_of_mem_set hv with hv | hv
    · exact h.writes v hv
    · cases hv

/-- In every run whose steps meet the condition no counter is accepted twice, and one
that has been accepted is refused whenever it comes again. -/
theorem accepted_once (h : Reaches (step receipts) (fun s e => serial s e = true) freshPairing s) :
    s.shared.accepted.Nodup ∧ ∀ c ∈ s.shared.accepted, serial s (.start c) = true →
      s.shared.row.accept c = none := by
  have hguarded : Guarded s := by
    refine h.invariant ⟨nodup_nil, nofun, .inl nofun⟩ fun s e t hs hok hstep => ?_
    cases e with
    | start counter => exact hs.started hok hstep
    | act i op => exact hs.written hstep
  refine ⟨hguarded.once, fun c hc hok => ?_⟩
  obtain hreturned | hnone := Bool.or_eq_true_iff.1 hok
  · refine (hguarded.row.resolve_right ?_ c hc).refused
    rintro ⟨w, hw⟩
    cases of_decide_eq_true (all_eq_true.1 hreturned _ hw)
  · exact Option.isNone_iff_eq_none.1 hnone

/-- Counters out of order, one of them a second time while another call has still to write. -/
theorem accepted_once_in_turn : ∃ s : System Inbound Receipt, s.shared.accepted = [5, 3, 100] ∧
      s.shared.accepted.Nodup ∧ ∀ c ∈ s.shared.accepted, serial s (.start c) = true →
        s.shared.row.accept c = none := by
  exact (exists_reaches_and_of_decide
    [.start 5, .act 0 (), .start 3, .start 5, .act 1 (), .start 3, .start 100, .act 4 (), .start 5]
    (by decide +kernel) fun _ hs => accepted_once hs).imp fun _ h => h.2

/-- Two replicas read the row before either writes it. -/
theorem accepted_twice :
    ∃ s : System Inbound Receipt, Reaches (step receipts) (fun _ _ => True) freshPairing s ∧
      s.shared.accepted = [5, 5] ∧ ¬s.shared.accepted.Nodup := by
  exact exists_reaches_of_decide [.start 5, .start 5, .act 0 (), .act 1 ()] (by decide +kernel)

end MeshsatHub.Oob
