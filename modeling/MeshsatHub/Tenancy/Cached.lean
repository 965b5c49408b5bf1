import MeshsatHub.Foundations.Interleaving

/-!
# Answers that a change has dropped

`StatusCache`, `SupportGrantCache` and the TAK authorizer keep what the store answered on one
replica. A change writes the store and drops the entry, but `RemoveUser` drops nothing. A lookup
that has read before the write may put its answer after the drop. An answer is the number of the
last change it reflects. Whether an entry is still fresh is a choice of the environment. No read
fails.
-/

namespace MeshsatHub.Tenancy
open Runs Interleaving List

/-- The changes written, the newest one that has been answered, and the cached answer. -/
structure Cached where
  changes : Nat
  settled : Nat
  entry : Option Nat

/-- A lookup carries the newest change that was answered when it started. -/
inductive CacheCall where
  | reading (since : Nat)
  | putting (since answer : Nat)
  | answered (since answer : Nat)
  | forgetting (change : Nat)
  | changed
  deriving DecidableEq

inductive CacheRequest where
  | look (fresh : Bool)
  | change

def Cached.start (g : Cached) : CacheRequest → Option (Cached × CacheCall)
  | .look fresh =>
    match g.entry, fresh with
    | some answer, true => some (g, .answered g.settled answer)
    | _, _ => some (g, .reading g.settled)
  | .change => some ({ g with changes := g.changes + 1 }, .forgetting (g.changes + 1))

/-- A change that `forgets` drops the entry before it is answered. -/
def Cached.perform (forgets : Bool) (g : Cached) : CacheCall → Unit → Option (Cached × CacheCall)
  | .reading since, _ => some (g, .putting since g.changes)
  | .putting since answer, _ => some ({ g with entry := some answer }, .answered since answer)
  | .forgetting change, _ =>
    let entry := if forgets then none else g.entry
    some ({ g with entry, settled := max g.settled change }, .changed)
  | _, _ => none

def cache (forgets : Bool) : Program Cached CacheCall CacheRequest Unit :=
  ⟨Cached.start, Cached.perform forgets⟩

/-- The call does not put an answer from before the change. -/
def CacheCall.spares (change : Nat) : CacheCall → Bool
  | .putting _ answer => change ≤ answer
  | _ => true

/-- When a change is answered, no older answer is about to be put, or is kept. -/
def settles (forgets : Bool) (s : System Cached CacheCall) : Event CacheRequest Unit → Bool
  | .act i _ =>
    match s.calls[i]? with
    | some (.forgetting change) =>
      s.calls.all (·.spares change) && (forgets || s.shared.entry.all (change ≤ ·))
    | _ => true
  | _ => true

structure Cached.Sound (g : Cached) : Prop where
  settled : g.settled ≤ g.changes
  entry : ∀ answer, g.entry = some answer → g.settled ≤ answer

def Cached.Knows (g : Cached) : CacheCall → Prop
  | .reading since => since ≤ g.settled
  | .putting since answer => since ≤ g.settled ∧ g.settled ≤ answer
  | .answered since answer => since ≤ answer
  | .forgetting change => change ≤ g.changes
  | .changed => True

abbrev CacheInv := Inv Cached.Sound Cached.Knows fun _ _ => True

variable {forgets : Bool} {g g' : Cached} {s t : System Cached CacheCall} {l : CacheCall}

/-- A change that is answered leaves a call what it knows, if the call spares it. -/
theorem Cached.Knows.settle {change : Nat} (h : g.Knows l) (hchanges : g.changes ≤ g'.changes)
    (hsettled : g'.settled = max g.settled change) (hspares : l.spares change) : g'.Knows l := by
  cases l <;> simp only [Knows, CacheCall.spares, decide_eq_true_eq] at * <;> omega

theorem CacheInv.step {e : Event CacheRequest Unit} (h : CacheInv s) (hok : settles forgets s e)
    (hstep : Interleaving.step (cache forgets) s e = some t) : CacheInv t := by
  obtain ⟨b, g, l, hstart⟩ | ⟨i, op, l, g, l', hi, hact⟩ := step_cases hstep
  · change s.shared.start b = some (g, l) at hstart
    revert hstart
    fun_cases Cached.start s.shared b with rintro ⟨⟩
    | case1 answer hentry =>
      exact h.begun h.shared (h.shared.entry answer hentry) fun _ _ hm => ⟨hm, trivial⟩
    | case2 => exact h.begun h.shared (Nat.le_refl _) fun _ _ hm => ⟨hm, trivial⟩
    | case3 =>
      refine h.begun ⟨Nat.le_succ_of_le h.shared.settled, h.shared.entry⟩ (Nat.le_refl _) ?_
      intro m _ hm
      exact ⟨hm.settle (Nat.le_succ _) (Nat.max_zero _).symm (by cases m <;> rfl), trivial⟩
  · have hl := h.call hi
    revert hact
    change s.shared.perform forgets l op = some (g, l') → _
    fun_cases Cached.perform forgets s.shared l op with rintro ⟨⟩
    | case1 since => exact h.acted hi h.shared ⟨hl, h.shared.settled⟩ fun _ _ hm _ => ⟨hm, trivial⟩
    | case2 since answer =>
      refine h.acted hi ⟨h.shared.settled, ?_⟩ (Nat.le_trans hl.1 hl.2)
        fun _ _ hm _ => ⟨hm, trivial⟩
      rintro answer ⟨⟩
      exact hl.2
    | case3 change =>
      simp only [settles, hi, Bool.and_eq_true, Bool.or_eq_true, all_eq_true] at hok
      refine h.acted hi ⟨Nat.max_le.2 ⟨h.shared.settled, hl⟩, fun answer hentry => ?_⟩
        trivial fun m hmem hm _ => ⟨hm.settle (Nat.le_refl _) rfl (hok.1 m hmem), trivial⟩
      cases forgets with
      | true => cases hentry
      | false =>
        have hkept : s.shared.entry = some answer := hentry
        exact Nat.max_le.2 ⟨h.shared.entry answer hkept, by simpa [hkept] using hok.2⟩

/-- A lookup that starts after a change was answered does not answer with what the store held
before it, if no older answer is put or left in the cache when a change is answered. -/
theorem dropped_not_served {since answer : Nat}
    (h : Reaches (step (cache forgets)) (fun s e => settles forgets s e) ⟨⟨0, 0, none⟩, []⟩ s)
    (hanswered : .answered since answer ∈ s.calls) : since ≤ answer := by
  have hinv : CacheInv s :=
    h.invariant (.nil ⟨Nat.le_refl _, nofun⟩) fun _ _ _ h hok hstep => h.step hok hstep
  exact hinv.calls _ hanswered

/-- Lookups before and after a suspension; and the authorizer asks while a user is removed. -/
theorem dropped_not_served_status :
    (∃ s, Reaches (step (cache true)) (fun s e => settles true s e) ⟨⟨0, 0, none⟩, []⟩ s ∧
      s.calls = [.answered 0 0, .changed, .answered 1 1] ∧
      ∀ since answer, .answered since answer ∈ s.calls → since ≤ answer) ∧
    ∃ s, Reaches (step (cache false)) (fun s e => settles false s e) ⟨⟨0, 0, none⟩, []⟩ s ∧
      s.calls = [.changed, .answered 0 1, .answered 1 1] ∧
      ∀ since answer, .answered since answer ∈ s.calls → since ≤ answer :=
  ⟨exists_reaches_and_of_decide [.start (.look true), .act 0 (), .act 0 (), .start .change,
      .act 1 (), .start (.look true), .act 2 (), .act 2 ()] (by decide +kernel)
      fun _ h _ _ => dropped_not_served h,
    exists_reaches_and_of_decide [.start .change, .start (.look true), .act 1 (), .act 1 (),
      .act 0 (), .start (.look true)] (by decide +kernel) fun _ h _ _ => dropped_not_served h⟩

/-- A lookup that read before the change puts its answer back; the authorizer has kept its own. -/
theorem dropped_served : (∃ s, Reaches (step (cache true)) (fun _ _ => True) ⟨⟨0, 0, none⟩, []⟩ s ∧
      .answered 1 0 ∈ s.calls) ∧
    ∃ s, Reaches (step (cache false)) (fun _ _ => True) ⟨⟨0, 0, none⟩, []⟩ s ∧
      .answered 1 0 ∈ s.calls :=
  ⟨exists_reaches_of_decide [.start (.look true), .act 0 (), .start .change, .act 1 (), .act 0 (),
      .start (.look true)] (by decide +kernel),
    exists_reaches_of_decide [.start (.look true), .act 0 (), .act 0 (), .start .change, .act 1 (),
      .start (.look true)] (by decide +kernel)⟩

end MeshsatHub.Tenancy
