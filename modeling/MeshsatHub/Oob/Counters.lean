import MeshsatHub.Foundations.Interleaving

/-!
# Counters of out-of-band frames

`Service.Pair`, `Unpair` and `Send` of `internal/oob/service.go` for one bridge. The nonce of a
frame is made of the peer id, which the key determines, the role and the counter. The first store
operation of a call is its start. A frame enters `seals` with the counter it is sealed with.
-/

namespace MeshsatHub.Oob
open Interleaving Runs List

structure Key where
  bytes : List UInt8
  length : bytes.length = 32
  deriving DecidableEq

/-- The Hub's role in a pairing. -/
inductive Role where
  | issuer
  | importer
  deriving DecidableEq

/-- The row of the bridge, as far as sending is concerned. -/
structure Pairing where
  key : Key
  role : Role
  txCounter : Int

structure SealedFrame where
  key : Key
  role : Role
  counter : Int
  deriving DecidableEq

structure Store where
  row : Option Pairing
  seals : List SealedFrame

inductive Request where
  | pair (key : Key) (role : Role)
  | unpair
  | send

/-- Where a call stands between two store operations. -/
inductive Call where
  /-- `Pair` before `UpsertOOBPeer`, with the counter it will write. -/
  | upsert (key : Key) (role : Role) (carried : Int)
  /-- `Send` before `NextOOBCounter`, with the key it will seal under. -/
  | count (key : Key) (role : Role)
  | returned

def carriedCounter (row : Option Pairing) (key : Key) : Int :=
  match row with
  | some old => if old.key = key then old.txCounter else 0
  | none => 0

def start (g : Store) : Request → Option (Store × Call)
  | .pair key role => some (g, .upsert key role (carriedCounter g.row key))
  | .unpair => some ({ g with row := none }, .returned)
  | .send =>
    match g.row with
    | some row => some (g, .count row.key row.role)
    | none => some (g, .returned)

/-- `NextOOBCounter` on a row, and the frame sealed with what it returns. -/
def countAndSeal (g : Store) (row : Pairing) (key : Key) (role : Role) : Store :=
  let n := row.txCounter + 1
  { row := some { row with txCounter := n }
    seals := if n ≤ 0 ∨ 0xFFFFFFFF ≤ n then g.seals else g.seals ++ [⟨key, role, n⟩] }

def perform (g : Store) (l : Call) (_ : Unit) : Option (Store × Call) :=
  match l with
  | .upsert key role carried => some ({ g with row := some ⟨key, role, carried⟩ }, .returned)
  | .count key role =>
    match g.row with
    | some row => some (countAndSeal g row key role, .returned)
    | none => some (g, .returned)
  | .returned => none

def counters : Program Store Call Request Unit where
  start := start
  perform := perform

/-- A bridge that has never been paired. -/
def unpaired : System Store Call := ⟨⟨none, []⟩, []⟩

/-- No counter under the key has been used that a row with this counter would use again. -/
def Covered (seals : List SealedFrame) (key : Key) (txCounter : Int) : Prop :=
  ∀ f ∈ seals, f.key = key → f.counter ≤ txCounter

/-- Under one key every frame has a counter of its own, and the row is past them. -/
structure Counted (g : Store) : Prop where
  covered : ∀ row, g.row = some row → Covered g.seals row.key row.txCounter
  distinct : g.seals.Pairwise fun a b => a.key = b.key → a.counter ≠ b.counter

/-- The condition on a step: `Pair` writes its row when the key has not been used for
a frame, or when the row there is has the key and a counter no higher than the one
written; `Send` takes its counter when the row still has the key it has read. -/
def orderly (s : System Store Call) : Event Request Unit → Bool
  | .act i _ =>
    match s.calls[i]? with
    | some (.upsert key _ carried) =>
      (s.shared.seals.all fun f => f.key ≠ key) ||
        s.shared.row.any fun row => row.key = key && row.txCounter ≤ carried
    | some (.count key _) => s.shared.row.all fun row => row.key = key
    | _ => true
  | .start _ => true

variable {g : Store}

theorem Counted.deleted (h : Counted g) : Counted { g with row := none } where
  covered := nofun
  distinct := h.distinct

variable {key : Key} {seals : List SealedFrame} {carried : Int}

theorem Counted.written (h : Counted g) {role : Role} (hcovered : Covered g.seals key carried) :
    Counted { g with row := some ⟨key, role, carried⟩ } where
  covered := by
    rintro row ⟨⟩
    exact hcovered
  distinct := h.distinct

theorem Covered.mono {m n : Int} (h : Covered seals key m) (hle : m ≤ n) : Covered seals key n :=
  fun f hf hkey => Int.le_trans (h f hf hkey) hle

theorem Covered.snoc {n : Int} (h : Covered seals key n) {f : SealedFrame} (hle : f.counter ≤ n) :
    Covered (seals ++ [f]) key n :=
  all_mem_snoc h fun _ => hle

theorem Counted.sealed (h : Counted g) {row : Pairing} (hrow : g.row = some row) (role : Role) :
    Counted (countAndSeal g row row.key role) := by
  have hcovered := h.covered row hrow
  have hnext : Covered g.seals row.key (row.txCounter + 1) := hcovered.mono (by omega)
  unfold countAndSeal
  dsimp only
  split
  · refine ⟨?_, h.distinct⟩
    rintro row' ⟨⟩
    exact hnext
  · constructor
    · rintro row' ⟨⟩
      exact hnext.snoc (Int.le_refl _)
    · rw [pairwise_append]
      refine ⟨h.distinct, pairwise_singleton _ _, ?_⟩
      intro f hf f' hf' hkey
      rw [mem_singleton.1 hf'] at hkey ⊢
      have hle := hcovered f hf hkey
      dsimp only
      omega

/-- What the condition says about the row a `Pair` writes. -/
theorem covered_of_orderly (h : Counted g)
    (hok : ((g.seals.all fun f => f.key ≠ key) || g.row.any fun row => row.key =
      key && row.txCounter ≤ carried)) : Covered g.seals key carried := by
  obtain hunused | hrow := Bool.or_eq_true_iff.1 hok
  · intro f hf hkey
    exact absurd hkey (by simpa using all_eq_true.1 hunused f hf)
  · cases heq : g.row with
    | none => simp [heq] at hrow
    | some row =>
      obtain ⟨rfl, hle⟩ : row.key = key ∧ row.txCounter ≤ carried := by simpa [heq] using hrow
      exact (h.covered row heq).mono hle

theorem Counted.step {s t : System Store Call} {e : Event Request Unit} (h : Counted s.shared)
    (hok : orderly s e) (hstep : step counters s e = some t) : Counted t.shared := by
  obtain ⟨b, g, l, hstart⟩ | ⟨i, _, l, g, l', hl, hperform⟩ := step_cases hstep
  · cases b with
    | pair key role =>
      cases hstart
      exact h
    | unpair =>
      cases hstart
      exact h.deleted
    | send =>
      simp only [counters, start] at hstart
      split at hstart <;> cases hstart <;> exact h
  · simp only [orderly, hl] at hok
    cases l with
    | upsert key role carried =>
      cases hperform
      exact h.written (covered_of_orderly h hok)
    | count key role =>
      simp only [counters, perform] at hperform
      split at hperform
      · next row hrow =>
        cases hperform
        obtain rfl : row.key = key := by simpa [hrow] using hok
        exact h.sealed hrow role
      · cases hperform
        exact h
    | returned => cases hperform

/-- In every run whose steps meet the condition, frames under one key have different counters. -/
theorem counters_distinct {s : System Store Call}
    (h : Reaches (step counters) (fun s e => orderly s e = true) unpaired s) :
    s.shared.seals.Pairwise fun a b => a.key = b.key → a.role = b.role → a.counter ≠ b.counter := by
  have hcounted : Counted s.shared :=
    @Reaches.invariant _ _ _ _ (fun s => Counted s.shared) _ _ h ⟨nofun, Pairwise.nil⟩
      fun _ _ _ hs hok hstep => hs.step hok hstep
  exact hcounted.distinct.imp fun hne hkey _ => hne hkey

def keyOf (b : UInt8) : Key := ⟨List.replicate 32 b, rfl⟩

/-- Pairing with a key, two frames under it, re-pairing with it, one more frame, pairing
with another key and a frame under that. -/
theorem counters_distinct_repaired : ∃ s : System Store Call,
      s.shared.seals.map (fun f => (decide (f.key = keyOf 1), f.counter)) =
        [(true, 1), (true, 2), (true, 3), (false, 1)] ∧
      s.shared.seals.Pairwise fun a b =>
        a.key = b.key → a.role = b.role → a.counter ≠ b.counter := by
  exact (exists_reaches_and_of_decide
    [.start (.pair (keyOf 1) .issuer), .act 0 (), .start .send, .act 1 (), .start .send,
      .act 2 (), .start (.pair (keyOf 1) .issuer), .act 3 (), .start .send, .act 4 (),
      .start (.pair (keyOf 2) .issuer), .act 5 (), .start .send, .act 6 ()]
    (by decide +kernel) fun _ hs => counters_distinct hs).imp fun _ h => h.2

/-- After `Unpair` and `Pair` with the same key the first counter is used again. -/
theorem counter_reused : ∃ s, Reaches (step counters) (fun _ _ => True) unpaired s ∧
      s.shared.seals = [⟨keyOf 1, .issuer, 1⟩, ⟨keyOf 1, .issuer, 1⟩] ∧
      ¬s.shared.seals.Pairwise fun a b =>
        a.key = b.key → a.role = b.role → a.counter ≠ b.counter := by
  exact exists_reaches_of_decide
    [.start (.pair (keyOf 1) .issuer), .act 0 (), .start .send, .act 1 (), .start .unpair,
      .start (.pair (keyOf 1) .issuer), .act 3 (), .start .send, .act 4 ()]
    (by decide +kernel)

end MeshsatHub.Oob
