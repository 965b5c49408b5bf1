import Mathlib
import MeshsatHub.Foundations.Interleaving

/-!
# Receipts

A proof handler picks the receipts a proof may be for under the node's lock, verifies it outside,
removes the receipt under the lock again and sends on the receipt's channel, which has one slot.
Whenever a section goes over the map of receipts it is given an order.
-/

namespace MeshsatHub.Receipts
open Interleaving Runs List Function Option

structure Channel (α : Type) where
  slot : Option α
  sent : List α

def Channel.send {α : Type} (c : Channel α) (a : α) : Option (Channel α) :=
  if c.slot.isSome then none else some ⟨some a, c.sent ++ [a]⟩

structure Receipt where
  hash : List UInt8
  dest : List UInt8
  sentAt : Int
  timeout : Int
  deriving DecidableEq

inductive ReceiptResult where
  | delivered (rtt : Int)
  | expired

inductive Proof where
  | explicit (hash : List UInt8)
  | implicit (destHash : List UInt8) (toLink : Bool)
  /-- A proof of another length. -/
  | other
  deriving DecidableEq

structure Node where
  receipts : List Receipt
  done : List UInt8 → Channel ReceiptResult

inductive Call where
  | picking (proof : Proof)
  | checking (proof : Proof) (candidates : List Receipt)
  | deleting (r : Receipt)
  | sending (r : Receipt)
  | expiring (now : Int)
  | telling (expired : List Receipt)
  | reading (hash : List UInt8)
  | returned
  deriving DecidableEq

/-- What a step finds: the orders in which it goes over the map, first and `again`, or the time. -/
structure Op where
  order : List Receipt
  again : List Receipt
  now : Int

def hashLen : Nat := 16

/-- A proof is addressed to the truncated packet hash, so those receipts come first. -/
def candidates (op : Op) : Proof → List Receipt
  | .explicit hash => op.order.filter (·.hash = hash)
  | .implicit destHash toLink =>
    (op.again.filter (·.hash.take hashLen = destHash)).reverse ++
      op.order.filter fun r => r.dest = destHash || toLink
  | .other => []

section Model
variable (valid : Proof → Receipt → Bool)

/-- A send that finds the channel full waits. -/
def send (g : Node) (r : Receipt) (result : ReceiptResult) : Option Node :=
  ((g.done r.hash).send result).map fun c => { g with done := update g.done r.hash c }

/-- One step of `handleReceiptProof` (up to `sending`), of `expireReceipts`, or of a reader. -/
def perform (g : Node) : Call → Op → Option (Node × Call)
  | .picking proof, op =>
    if op.order.isPerm g.receipts && op.again.isPerm g.receipts then
      some (g, .checking proof (candidates op proof))
    else none
  | .checking _ [], _ => some (g, .returned)
  | .checking proof (r :: rest), _ =>
    some (g, if valid proof r then .deleting r else .checking proof rest)
  | .deleting r, _ => some ({ g with receipts := g.receipts.filter (·.hash ≠ r.hash) }, .sending r)
  | .sending r, op => (send g r (.delivered (op.now - r.sentAt))).map (·, .returned)
  | .expiring now, op =>
    if op.order.isPerm g.receipts then
      some ({ g with receipts := g.receipts.filter fun r => ¬r.timeout < now },
        .telling (op.order.filter (·.timeout < now)))
    else none
  | .telling [], _ => some (g, .returned)
  | .telling (r :: rest), _ => some ((send g r .expired).getD g, .telling rest)
  | .reading hash, _ => some ({ g with
      done := update g.done hash { g.done hash with slot := none } }, .returned)
  | .returned, _ => none

inductive Begin where
  | handleReceiptProof (proof : Proof)
  | expireReceipts (now : Int)
  | read (hash : List UInt8)

def Begin.call : Begin → Call
  | .handleReceiptProof proof => .picking proof
  | .expireReceipts now => .expiring now
  | .read hash => .reading hash

def program : Program Node Call Begin Op := ⟨fun g b => some (g, b.call), perform valid⟩

def outstanding (receipts : List Receipt) : System Node Call :=
  ⟨⟨receipts, fun _ => ⟨none, []⟩⟩, []⟩

/-- A receipt that a handler removes is still there. -/
def unresolved (s : System Node Call) : Event Begin Op → Bool
  | .act i _ => s.calls[i]?.all fun
    | .deleting r => s.shared.receipts.any (·.hash = r.hash)
    | _ => true
  | .start _ => true

end Model

section Runs

/-- How many results a call is still to send on a channel. -/
def owes (hash : List UInt8) : Call → Nat
  | .sending r => [r].countP (·.hash = hash)
  | .telling expired => expired.countP (·.hash = hash)
  | _ => 0

/-- The results that are to come, with what a call owes and what has been sent. -/
def results (hash : List UInt8) (g : Node) (owed : Nat) : Nat :=
  g.receipts.countP (·.hash = hash) + owed + (g.done hash).sent.length

def Sound (g : Node) : Prop := ∀ hash, (g.done hash).sent = [] → (g.done hash).slot = none

variable {valid : Proof → Receipt → Bool} {g g' : Node} {l l' : Call} {op : Op} (hash : List UInt8)

theorem send_spec {r : Receipt} {result : ReceiptResult} (h : send g r result = some g')
    (owed : Nat) :
    results hash g' owed = results hash g (owed + [r].countP (·.hash = hash)) ∧
      (Sound g → Sound g') := by
  obtain ⟨c, hc, rfl⟩ := map_eq_some_iff.1 h
  obtain ⟨-, hc⟩ := ite_none_left_eq_some.1 hc
  cases hc
  constructor
  · by_cases heq : r.hash = hash
    · simp [results, heq]
      omega
    · simp [results, heq, update_of_ne (Ne.symm heq)]
  · intro hsound other
    by_cases heq : other = r.hash
    · simp [heq]
    · simpa [update_of_ne heq] using hsound other

/-- A step of a call keeps the number of results, if it finds the receipt it removes and the channel
it sends on is free. -/
theorem perform_spec (h : perform valid g l op = some (g', l')) (hsound : Sound g)
    (hone : g.receipts.countP (·.hash = hash) ≤ 1)
    (hfound : ∀ r, l = .deleting r → g.receipts.any (·.hash = r.hash))
    (hfree : 0 < owes hash l → (g.done hash).slot = none) :
    results hash g' (owes hash l') = results hash g (owes hash l) ∧ Sound g' := by
  revert h
  fun_cases perform valid g l op with
  | case4 proof r rest op =>
    rintro ⟨⟩
    split <;> exact ⟨rfl, hsound⟩
  | case5 r op =>
    rintro ⟨⟩
    refine ⟨?_, hsound⟩
    simp only [results, owes, countP_filter, countP_singleton]
    by_cases heq : r.hash = hash
    · have hpos : 0 < g.receipts.countP (·.hash = hash) := by
        rw [countP_pos_iff]
        simpa [heq] using hfound r rfl
      simp [heq]
      omega
    · have hsame : g.receipts.countP (fun a => decide (a.hash = hash) && decide (a.hash ≠ r.hash)) =
          g.receipts.countP (·.hash = hash) := by
        apply countP_congr
        grind
      rw [hsame]
      simp [heq]
  | case6 r op =>
    intro h
    obtain ⟨g'', hsend, heq⟩ := map_eq_some_iff.1 h
    cases heq
    rw [(send_spec hash hsend _).1]
    exact ⟨by simp only [owes, Nat.zero_add], (send_spec hash hsend 0).2 hsound⟩
  | case7 now op horder =>
    rintro ⟨⟩
    have hsplit := countP_eq_countP_filter_add g.receipts (·.hash = hash) (·.timeout < now)
    simp only [results, owes, decide_not, ((isPerm_iff.1 horder).filter _).countP_eq]
    exact ⟨by omega, hsound⟩
  | case10 r rest op =>
    rintro ⟨⟩
    have howes : owes hash (.telling (r :: rest)) =
        owes hash (.telling rest) + [r].countP (·.hash = hash) := by
      simp only [owes, countP_cons, countP_nil, Nat.zero_add]
    rw [howes] at hfree ⊢
    cases hsend : send g r .expired with
    | some g' => exact (send_spec hash hsend _).imp_right (· hsound)
    | none =>
      -- The channel that is not free is another one.
      have hother : r.hash ≠ hash := by
        rintro rfl
        simp [send, Channel.send, hfree (by simp)] at hsend
      simpa [hother] using hsound
  | case11 read op =>
    rintro ⟨⟩
    constructor
    · by_cases heq : hash = read
      · simp [results, heq, owes]
      · simp [results, update_of_ne heq, owes]
    · intro other
      by_cases heq : other = read
      · simp [heq]
      · simpa [update_of_ne heq] using hsound other
  | case2 | case8 | case12 => rintro ⟨⟩
  | _ =>
    rintro ⟨⟩
    exact ⟨rfl, hsound⟩

variable {s t : System Node Call} {e : Event Begin Op} {receipts : List Receipt}

structure Resolving (receipts : List Receipt) (s : System Node Call) : Prop where
  nodup : (receipts.map (·.hash)).Nodup
  sound : Sound s.shared
  total : ∀ hash, results hash s.shared (s.calls.map (owes hash)).sum =
    (receipts.map (·.hash)).count hash

section
variable (h : Resolving receipts s)
include h

theorem Resolving.le_one : results hash s.shared (s.calls.map (owes hash)).sum ≤ 1 := by
  rw [h.total]
  exact nodup_iff_count_le_one.1 h.nodup hash

theorem Resolving.free (hl : l ∈ s.calls) (howes : 0 < owes hash l) :
    (s.shared.done hash).slot = none := by
  apply h.sound
  rw [← length_eq_zero_iff]
  have hone := h.le_one hash
  obtain ⟨front, back, hcalls⟩ := append_of_mem hl
  rw [results, hcalls, map_append, sum_append, map_cons, sum_cons] at hone
  omega

theorem resolving_step (hok : unresolved s e)
    (hstep : step (program valid) s e = some t) : Resolving receipts t := by
  obtain ⟨b, g, l, hstart⟩ | ⟨i, op, l, g, l', hi, hact⟩ := step_cases hstep
  · cases hstart
    refine ⟨h.nodup, h.sound, fun hash => ?_⟩
    have hnone : owes hash b.call = 0 := by cases b <;> rfl
    simpa [hnone] using h.total hash
  · have hfound : ∀ r, l = .deleting r → s.shared.receipts.any (·.hash = r.hash) := by
      rintro r rfl
      simpa [unresolved, hi] using hok
    have hspec hash := perform_spec hash hact h.sound
      (by have hone := h.le_one hash; unfold results at hone; omega) hfound
      (h.free hash (mem_of_getElem? hi))
    refine ⟨h.nodup, (hspec []).2, fun hash => ?_⟩
    have hsame := (hspec hash).1
    obtain ⟨front, back, hcalls, hset, -⟩ := exists_split hi l'
    have htotal := h.total hash
    rw [results, hcalls] at htotal
    rw [results, hset]
    simp only [results, map_append, map_cons, sum_append, sum_cons] at htotal hsame ⊢
    omega

end

/-- In every run in which a handler finds the receipt that it removes: at most one result is sent
for a receipt, exactly one once the receipt has left the map and nobody has its result in hand, and
no handler waits for the channel. -/
theorem receipts_resolved (hnodup : (receipts.map (·.hash)).Nodup)
    (hs : Reaches (step (program valid)) (fun s e => unresolved s e = true)
      (outstanding receipts) s) :
    (∀ r ∈ receipts, (s.shared.done r.hash).sent.length ≤ 1 ∧
      (r.hash ∉ s.shared.receipts.map (·.hash) → (∀ l ∈ s.calls, owes r.hash l = 0) →
        (s.shared.done r.hash).sent.length = 1)) ∧
    ∀ i r op, s.calls[i]? = some (.sending r) →
      (step (program valid) s (.act i op)).isSome = true := by
  have h : Resolving receipts s := by
    refine hs.invariant ⟨hnodup, fun _ _ => rfl, fun hash => ?_⟩
      fun _ _ _ h hok => resolving_step h hok
    rw [count_eq_countP, countP_map]
    apply countP_congr
    simp
  constructor
  · intro r hr
    have hone := h.le_one r.hash
    refine ⟨by unfold results at hone; omega, fun hgone howes => ?_⟩
    have hpresent : s.shared.receipts.countP (·.hash = r.hash) = 0 := by
      rw [countP_eq_zero]
      simpa using hgone
    have howed : (s.calls.map (owes r.hash)).sum = 0 := by
      rw [map_congr_left howes, map_const', sum_replicate_nat, Nat.mul_zero]
    have htotal := h.total r.hash
    rw [results, hpresent, howed, count_eq_one_of_mem hnodup (mem_map_of_mem hr)] at htotal
    omega
  · intro i r op hi
    have hfree := h.free r.hash (mem_of_getElem? hi) (by simp [owes])
    simp [step, hi, program, perform, send, Channel.send, hfree]

end Runs

def ping : Receipt := ⟨[1], [2], 0, 10⟩

/-- The node while a proof for a receipt is handled, and what a step finds. -/
def pinged : Program Node Call Begin Op := program fun _ _ => true

def found : Op := ⟨[ping], [ping], 5⟩

theorem receipts_resolved_ping :
    (∃ s, Reaches (step pinged) (fun s e => unresolved s e = true) (outstanding [ping]) s ∧
      (s.shared.done [1]).sent.length = 1) ∧
    ∃ s, Reaches (step pinged) (fun s e => unresolved s e = true) (outstanding [ping]) s ∧
      (step pinged s (.act 0 found)).isSome = true := by
  constructor
  · obtain ⟨s, hs, ⟨hgone, howes⟩, hall, -⟩ := exists_reaches_and_of_decide
      (P := fun s => [1] ∉ s.shared.receipts.map (·.hash) ∧ ∀ l ∈ s.calls, owes [1] l = 0)
      [.start (.handleReceiptProof (.explicit [1])), .act 0 found, .act 0 found, .act 0 found,
        .act 0 found] (by decide +kernel)
      fun s (hs : Reaches (step pinged) _ (outstanding [ping]) s) =>
        receipts_resolved (by decide) hs
    exact ⟨s, hs, (hall ping mem_cons_self).2 hgone howes⟩
  · obtain ⟨s, hs, hsending, -, hfree⟩ := exists_reaches_and_of_decide
      (P := fun s => s.calls[0]? = some (.sending ping))
      [.start (.handleReceiptProof (.explicit [1])), .act 0 found, .act 0 found, .act 0 found]
      (by decide +kernel)
      fun s (hs : Reaches (step pinged) _ (outstanding [ping]) s) =>
        receipts_resolved (by decide) hs
    exact ⟨s, hs, hfree 0 ping found hsending⟩

/-- Two handlers have picked the receipt: the second one waits for a reader. -/
theorem second_proof_waits : ∃ s, Reaches (step pinged) (fun _ _ => True) (outstanding [ping]) s ∧
      s.calls[1]? = some (.sending ping) ∧ (s.shared.done [1]).slot.isSome = true ∧
      (step pinged s (.act 1 found)).isSome = false := by
  exact exists_reaches_of_decide
    [.start (.handleReceiptProof (.explicit [1])), .start (.handleReceiptProof (.explicit [1])),
      .act 0 found, .act 1 found, .act 0 found, .act 1 found, .act 0 found, .act 1 found,
      .act 0 found] (by decide +kernel)

end MeshsatHub.Receipts
