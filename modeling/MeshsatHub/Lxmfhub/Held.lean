import Mathlib
import MeshsatHub.Foundations.Runs

/-!
# What a propagation node keeps

`pnInbound` makes room before it stores a message, and `sweepHeld` keeps a store under its cap. Both
drop what has expired and then the oldest messages, by a running sum from the newest on. A table has
one tenant's rows, and no query fails.
-/

namespace MeshsatHub.Lxmfhub
open List Runs
variable {I : Type} [LinearOrder I]

/-- A row of `lxmf_held`. -/
structure Held (I : Type) where
  id : I
  destination : I
  size : Nat
  receivedAt : Nat
  deriving DecidableEq

def Held.age (r : Held I) : ℕ ×ₗ I := toLex (r.receivedAt, r.id)

variable (cap expiry : Nat) (rows : List (Held I)) (r m : Held I)

/-- `LXMFHeldBytes`. -/
def heldBytes : Nat := (rows.map Held.size).sum

/-- The running sum of `PruneLXMFHeld`. -/
def running : Nat := heldBytes (rows.filter fun q => r.age ≤ q.age)

def unexpired (cutoff : Nat) : List (Held I) := rows.filter fun r => ¬r.receivedAt < cutoff

/-- `PruneLXMFHeld`. -/
def prune (cutoff : Nat) (maxBytes : Int) : List (Held I) :=
  let rows := unexpired rows cutoff
  if maxBytes ≤ 0 then rows else rows.filter fun r => ¬maxBytes < running rows r

def holds : Bool := rows.any fun r => r.id = m.id

/-- `InsertLXMFHeld`. -/
def insertHeld : List (Held I) := if holds rows m then rows else rows ++ [m]

inductive NodeEvent (I : Type) where
  | transfer (m : Held I)
  | get (destination : I) (had : List I)
  | sweep (now : Nat)

/-- `pnInbound`, the removal in `pnGet`, and `sweepHeld`. -/
def nodeStep : NodeEvent I → List (Held I)
  | .transfer m =>
    insertHeld (if cap < heldBytes rows + m.size then
      prune rows (m.receivedAt - expiry) (cap - m.size) else rows) m
  | .get destination had => rows.filter fun r => ¬(r.destination = destination ∧ r.id ∈ had)
  | .sweep now => prune rows (now - expiry) cap

/-- `r` and what is newer exceed the room, and no row as old as `r` is among those left. -/
def Evicted (room : Nat) (rows left : List (Held I)) (r : Held I) : Prop :=
  room < running rows r ∧ ∀ q ∈ rows, q.age ≤ r.age → q ∉ left

/-- Why a row is no longer among those left. -/
def Accounted (left : List (Held I)) (r : Held I) : NodeEvent I → Prop
  | .transfer m => r.receivedAt < m.receivedAt - expiry ∨ ¬holds rows m ∧
    Evicted (cap - m.size) (unexpired rows (m.receivedAt - expiry)) left r
  | .get destination had => r.destination = destination ∧ r.id ∈ had
  | .sweep now => r.receivedAt < now - expiry ∨
    Evicted cap (unexpired rows (now - expiry)) left r

/-- A transfer that evicts only what it must: the message fits beside what has not expired, or is
smaller than the cap and new, or is held by a store that is within its cap. -/
def Fits : NodeEvent I → Prop
  | .transfer m =>
    let left := unexpired rows (m.receivedAt - expiry)
    heldBytes left + m.size ≤ cap ∨ m.size < cap ∧ ¬holds rows m ∨
      cap ≤ m.size ∧ holds left m ∧ heldBytes left ≤ cap
  | _ => True

/-- The row that a transfer would store is not there yet: its time of receipt is a new one. -/
def Fresh : NodeEvent I → Prop
  | .transfer m => m ∉ rows
  | _ => True

def NodeEvent.stores : NodeEvent I → Bool
  | .get _ _ => false
  | _ => true

/-- After a transfer or a sweep the store is within its cap, and what is gone was had by its
recipient, had expired, or was among the oldest and stood in the way. -/
def Kept (e : NodeEvent I) : Prop :=
  (e.stores → heldBytes (nodeStep cap expiry rows e) ≤ cap) ∧
    ∀ r ∈ rows, r ∉ nodeStep cap expiry rows e →
      Accounted cap expiry rows (nodeStep cap expiry rows e) r e

variable {cap expiry rows r m} {q : Held I} {cutoff room : Nat} {e : NodeEvent I}

omit [LinearOrder I] in
theorem heldBytes_le {rows' : List (Held I)} (h : rows <+ rows') :
    heldBytes rows ≤ heldBytes rows' :=
  (h.map Held.size).sum_le_sum fun _ _ => Nat.zero_le _

theorem running_le_running (h : q.age ≤ r.age) : running rows r ≤ running rows q :=
  heldBytes_le (monotone_filter_right rows fun x hx => by
    simp only [decide_eq_true_eq] at hx ⊢
    exact h.trans hx)

theorem mem_prune (hroom : 0 < room) : r ∈ prune rows cutoff room ↔
    r ∈ unexpired rows cutoff ∧ running (unexpired rows cutoff) r ≤ room := by
  simp [prune, hroom.ne']

/-- What is left fits: it is at most the sum that runs up to the oldest row left. -/
theorem heldBytes_prune_le (hroom : 0 < room) : heldBytes (prune rows cutoff room) ≤ room := by
  cases hmin : argmin Held.age (prune rows cutoff room) with
  | none => simp [argmin_eq_none.1 hmin, heldBytes]
  | some r =>
    obtain ⟨-, hr⟩ := (mem_prune hroom).1 (argmin_mem hmin)
    refine le_trans ?_ hr
    apply heldBytes_le
    rw [← filter_eq_self.2 fun q hq => decide_eq_true (le_of_mem_argmin hq hmin)]
    apply Sublist.filter
    simp only [prune]
    split
    · exact Sublist.refl _
    · exact filter_sublist

theorem heldBytes_insertHeld : heldBytes (insertHeld rows m) =
    if holds rows m then heldBytes rows else heldBytes rows + m.size := by
  unfold insertHeld
  split <;> simp [heldBytes]

theorem heldBytes_insertHeld_le : heldBytes (insertHeld rows m) ≤ heldBytes rows + m.size := by
  rw [heldBytes_insertHeld]
  split <;> omega

theorem mem_insertHeld : r ∈ insertHeld rows m ↔ r ∈ rows ∨ ¬holds rows m ∧ r = m := by
  unfold insertHeld
  split <;> simp_all

theorem evicted_of_not_mem (hroom : 0 < room) (hr : r ∈ rows) (hlost : r ∉ prune rows cutoff room) :
    r.receivedAt < cutoff ∨
      Evicted room (unexpired rows cutoff) (prune rows cutoff room) r := by
  by_cases hexpired : r.receivedAt < cutoff
  · exact .inl hexpired
  · have hmem : r ∈ unexpired rows cutoff := by simpa [unexpired, hr] using hexpired
    have hroom' : room < running (unexpired rows cutoff) r := by
      by_contra hfits
      exact hlost ((mem_prune hroom).2 ⟨hmem, Nat.not_lt.1 hfits⟩)
    refine .inr ⟨hroom', fun q _ hq hleft => ?_⟩
    have hkept := ((mem_prune hroom).1 hleft).2
    exact absurd (hroom'.trans_le (running_le_running hq)) (Nat.not_lt.2 hkept)

theorem prune_eq_unexpired {room : Int}
    (h : 0 < room → ∀ r ∈ unexpired rows cutoff, running (unexpired rows cutoff) r ≤ room) :
    prune rows cutoff room = unexpired rows cutoff := by
  unfold prune
  split
  · rfl
  next hroom =>
    exact filter_eq_self.2 fun r hr => decide_eq_true (not_lt.2 (h (not_le.1 hroom) r hr))

/-- If what has not expired does not fit, some of it is dropped. -/
theorem exists_evicted (hroom : 0 < room) (hover : room < heldBytes (unexpired rows cutoff)) :
    ∃ r ∈ unexpired rows cutoff, r ∉ prune rows cutoff room := by
  by_contra hall
  have hkept : prune rows cutoff room = unexpired rows cutoff := by
    refine prune_eq_unexpired fun _ r hr => ?_
    have hleft : r ∈ prune rows cutoff room := by_contra fun hlost => hall ⟨r, hr, hlost⟩
    exact Int.ofNat_le.2 ((mem_prune hroom).1 hleft).2
  have hle : heldBytes (prune rows cutoff room) ≤ room := heldBytes_prune_le hroom
  rw [hkept] at hle
  omega

theorem expired_of_not_mem (hr : r ∈ rows) (hlost : r ∉ insertHeld (unexpired rows cutoff) m) :
    r.receivedAt < cutoff := by
  by_contra hyoung
  exact hlost (mem_insertHeld.2 (.inl (mem_filter.2 ⟨hr, decide_eq_true hyoung⟩)))

/-- A transfer for which room is made. -/
theorem kept_pruned_iff (hfresh : m ∉ rows) (hover : cap < heldBytes rows + m.size) :
    Kept cap expiry rows (.transfer m) ↔ Fits cap expiry rows (.transfer m) := by
  unfold Kept Fits
  simp only [nodeStep, if_pos hover, NodeEvent.stores, true_implies]
  by_cases hsize : m.size < cap
  · have hroom : 0 < cap - m.size := Nat.sub_pos_of_lt hsize
    rw [← Int.ofNat_sub hsize.le]
    have hcap : heldBytes (insertHeld (prune rows (m.receivedAt - expiry) ↑(cap - m.size)) m) ≤
        cap := by
      have hpruned : heldBytes (prune rows (m.receivedAt - expiry) ↑(cap - m.size)) ≤ _ :=
        heldBytes_prune_le hroom
      refine heldBytes_insertHeld_le.trans ?_
      omega
    constructor
    · rintro ⟨-, hlost⟩
      by_contra hnot
      simp only [not_or, not_and, not_le, not_not] at hnot
      obtain ⟨hover', hheld, -⟩ := hnot
      obtain ⟨r, hr, hgone⟩ := exists_evicted hroom (Nat.sub_lt_right_of_lt_add hsize.le hover')
      obtain ⟨hmem, hyoung⟩ := mem_filter.1 hr
      obtain hexpired | ⟨hnew, -⟩ := hlost r hmem fun hleft => by
        obtain hleft | ⟨-, rfl⟩ := mem_insertHeld.1 hleft
        · exact hgone hleft
        · exact hfresh hmem
      · exact absurd hexpired (of_decide_eq_true hyoung)
      · exact hnew (hheld hsize)
    · rintro (hfits | ⟨-, hnew⟩ | ⟨hlarge, -⟩)
      · refine ⟨hcap, fun r hr hlost => .inl ?_⟩
        rw [prune_eq_unexpired fun _ q _ => ?_] at hlost
        · exact expired_of_not_mem hr hlost
        · have hle : running (unexpired rows (m.receivedAt - expiry)) q ≤ _ :=
            heldBytes_le filter_sublist
          omega
      · refine ⟨hcap, fun r hr hlost => ?_⟩
        have hlost := fun hleft => hlost (mem_insertHeld.2 (.inl hleft))
        refine (evicted_of_not_mem hroom hr hlost).imp_right fun ⟨hexceeds, hold⟩ => ?_
        refine ⟨hnew, hexceeds, fun q hq hage hleft => ?_⟩
        obtain hleft | ⟨-, rfl⟩ := mem_insertHeld.1 hleft
        · exact hold q hq hage hleft
        · exact hfresh (mem_of_mem_filter hq)
      · exact absurd hsize (Nat.not_lt.2 hlarge)
  · -- no room is made for a message as large as the cap, so only what has expired goes
    rw [prune_eq_unexpired fun _ => by omega, heldBytes_insertHeld]
    have hlost : ∀ r ∈ rows, r ∉ insertHeld (unexpired rows (m.receivedAt - expiry)) m →
        Accounted cap expiry rows (insertHeld (unexpired rows (m.receivedAt - expiry)) m) r
          (.transfer m) := fun r hr hlost => .inl (expired_of_not_mem hr hlost)
    rw [and_iff_left hlost]
    split
    next hheld =>
      refine ⟨fun hle => .inr (.inr ⟨Nat.not_lt.1 hsize, hheld, hle⟩), ?_⟩
      rintro (hle | ⟨hsmall, -⟩ | ⟨-, -, hle⟩) <;> omega
    next hnew =>
      refine ⟨.inl, ?_⟩
      rintro (hle | ⟨hsmall, -⟩ | ⟨-, hheld, -⟩)
      · exact hle
      · exact absurd hsmall hsize
      · exact absurd hheld hnew

theorem kept_iff (hcap : 0 < cap) (hfresh : Fresh rows e) :
    Kept cap expiry rows e ↔ Fits cap expiry rows e := by
  cases e with
  | transfer m =>
    by_cases hover : cap < heldBytes rows + m.size
    · exact kept_pruned_iff hfresh hover
    · have hle : heldBytes (unexpired rows (m.receivedAt - expiry)) ≤ heldBytes rows :=
        heldBytes_le filter_sublist
      refine iff_of_true ?_ (.inl (by omega))
      simp only [Kept, nodeStep, if_neg hover]
      exact ⟨fun _ => heldBytes_insertHeld_le.trans (Nat.not_lt.1 hover),
        fun r hr hlost => absurd (mem_insertHeld.2 (.inl hr)) hlost⟩
  | get destination had =>
    refine iff_of_true ⟨nofun, fun r hr hlost => ?_⟩ trivial
    simpa [nodeStep, Accounted, hr] using hlost
  | sweep now =>
    exact iff_of_true ⟨fun _ => heldBytes_prune_le hcap,
      fun r hr hlost => evicted_of_not_mem hcap hr hlost⟩ trivial

/-- At every state a step keeps what it must exactly if what is transferred fits, and in every run
of such steps the store stays within its cap. -/
theorem dropped_accounted_iff (hcap : 0 < cap) :
    (∀ rows (e : NodeEvent I), Fresh rows e → (Kept cap expiry rows e ↔ Fits cap expiry rows e)) ∧
      ∀ rows : List (Held I), Reaches (fun rows e => some (nodeStep cap expiry rows e))
        (fun rows e => Fresh rows e ∧ Fits cap expiry rows e) [] rows → heldBytes rows ≤ cap := by
  refine ⟨fun rows e => kept_iff hcap, fun rows hrun => ?_⟩
  induction hrun with
  | refl => exact Nat.zero_le _
  | tail e _ hok hstep hrows =>
    cases hstep
    have hkept := ((kept_iff hcap hok.1).2 hok.2).1
    cases e with
    | transfer | sweep => exact hkept rfl
    | get => exact (heldBytes_le filter_sublist).trans hrows

def sized (id size receivedAt : Nat) : Held Nat := ⟨id, 0, size, receivedAt⟩

/-- A message of four bytes takes the place of the oldest of two. -/
theorem dropped_accounted_room :
    nodeStep 10 100 [sized 1 5 1, sized 2 5 2] (.transfer (sized 3 4 3)) =
      [sized 2 5 2, sized 3 4 3] ∧
    Kept 10 100 [sized 1 5 1, sized 2 5 2] (.transfer (sized 3 4 3)) := by
  have hfresh : Fresh [sized 1 5 1, sized 2 5 2] (.transfer (sized 3 4 3)) := by
    unfold Fresh
    decide
  refine ⟨by decide +kernel, ((dropped_accounted_iff (by decide)).1 _ _ hfresh).2 ?_⟩
  exact .inr (.inl (by decide))

/-- A message that is held already comes again and drops the other one; and one as large as the cap
is stored beside what is held. -/
theorem dropped_for_held :
    nodeStep 10 100 [sized 1 6 1, sized 2 4 2] (.transfer (sized 2 4 3)) = [sized 2 4 2] ∧
      heldBytes (nodeStep 10 100 [sized 1 6 1] (.transfer (sized 2 10 2))) = 16 := by
  decide +kernel

end MeshsatHub.Lxmfhub
