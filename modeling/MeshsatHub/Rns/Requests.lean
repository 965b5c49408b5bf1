import MeshsatHub.Rns.Receipts

/-!
# Results of requests

A request's one result is sent by whoever takes the request out of the link's map first: the
response, the timer or the close of the link. The goroutine with the timer also receives from the
channel. The timer and the caller are the calls 0 and 1. `taken` is what the first taker is to send.
-/

namespace MeshsatHub.Requests
open Interleaving Runs List Receipts Option

inductive Result (V : Type) where
  | response (v : V)
  | timedOut
  | linkClosed
  deriving DecidableEq

variable {V : Type}

structure Request (V : Type) where
  taken : Option (Result V)
  done : Channel (Result V)
  got : Option (Result V)

inductive Call (V : Type) where
  | waiting
  | taking (result : Result V)
  | sending (result : Result V)
  | calling
  | returned
  deriving DecidableEq

/-- Of the two cases of the timer's select, the timer fires or the channel is received from. -/
inductive Op where
  | fire
  | go

def perform (g : Request V) : Call V → Op → Option (Request V × Call V)
  | .waiting, .fire => some (g, .taking .timedOut)
  | .waiting, .go => g.done.slot.map fun _ =>
    ({ g with done := { g.done with slot := none } }, .returned)
  | .taking result, _ =>
    match g.taken with
    | none => some ({ g with taken := some result }, .sending result)
    | some _ => some (g, .returned)
  | .sending result, _ => (g.done.send result).map fun c => ({ g with done := c }, .returned)
  | .calling, _ => g.done.slot.map fun result =>
    ({ g with done := { g.done with slot := none }, got := some result }, .returned)
  | .returned, _ => none

def link : Program (Request V) (Call V) (Option V) Op where
  start g arrived := some (g, .taking (arrived.elim .linkClosed .response))
  perform := perform

def requested : System (Request V) (Call V) := ⟨⟨none, ⟨none, []⟩, none⟩, [.waiting, .calling]⟩

/-- The timer does not receive. -/
def left (s : System (Request V) (Call V)) : Event (Option V) Op → Bool
  | .act i .go => s.calls[i]?.all fun | .waiting => false | _ => true
  | _ => true

def Call.sends : Call V → List (Result V)
  | .sending result => [result]
  | _ => []

def Kept (g : Request V) (sends : List (Result V)) : Prop :=
  sends ++ g.done.sent = g.taken.toList ∧ g.done.sent = g.done.slot.toList ++ g.got.toList

theorem Kept.length_le {g : Request V} {sends : List (Result V)} (h : Kept g sends) :
    sends.length + g.done.sent.length ≤ 1 := by
  rw [← length_append, h.1, length_toList]
  split <;> decide

theorem Kept.free {g : Request V} {front back : List (Result V)} {r : Result V}
    (h : Kept g (front ++ r :: back)) : front = [] ∧ back = [] ∧ g.taken = some r ∧
      g.done = ⟨none, []⟩ ∧ g.got = none := by
  have hle := h.length_le
  rw [length_append, length_cons] at hle
  have hfront : front = [] := length_eq_zero_iff.1 (by omega)
  have hback : back = [] := length_eq_zero_iff.1 (by omega)
  have hsent : g.done.sent = [] := length_eq_zero_iff.1 (by omega)
  obtain ⟨htaken, hheld⟩ := h
  obtain ⟨taken, ⟨slot, sent⟩, got⟩ := g
  subst hfront hback
  cases taken <;> cases slot <;> cases got <;> simp_all

theorem perform_kept {g g' : Request V} {l l' : Call V} {op : Op} {front back : List (Result V)}
    (h : Kept g (front ++ (l.sends ++ back))) (hleft : l = .waiting → op = .fire)
    (hact : perform g l op = some (g', l')) : Kept g' (front ++ (l'.sends ++ back)) := by
  revert hact
  fun_cases perform g l op with
  | case1 | case4 =>
    rintro ⟨⟩
    exact h
  | case2 => cases hleft rfl
  | case3 result _ htaken =>
    rintro ⟨⟩
    obtain ⟨htotal, hheld⟩ := h
    rw [htaken] at htotal
    obtain ⟨rfl, rfl, hsent⟩ : front = [] ∧ back = [] ∧ g.done.sent = [] := by
      simpa [Call.sends] using htotal
    exact ⟨by simp [Call.sends, hsent], hheld⟩
  | case5 =>
    intro hact
    obtain ⟨rfl, rfl, htaken, hdone, hgot⟩ := Kept.free h
    rw [hdone] at hact
    cases hact
    simp [Kept, Call.sends, htaken, hgot]
  | case6 =>
    intro hact
    obtain ⟨result, hslot, heq⟩ := map_eq_some_iff.1 hact
    cases heq
    have hle := h.length_le
    obtain ⟨htotal, hheld⟩ := h
    rw [hslot] at hheld
    rw [hheld, length_append, length_append] at hle
    have hgot : g.got = none := by
      cases hgot : g.got with
      | none => rfl
      | some r => simp [hgot] at hle
    exact ⟨htotal, by simpa [hgot] using hheld⟩
  | case7 => rintro ⟨⟩

variable {s t : System (Request V) (Call V)} {e : Event (Option V) Op}

theorem kept_step (h : Kept s.shared (s.calls.flatMap Call.sends)) (hok : left s e)
    (hstep : step link s e = some t) : Kept t.shared (t.calls.flatMap Call.sends) := by
  obtain ⟨b, g, l, hstart⟩ | ⟨i, op, l, g, l', hi, hact⟩ := step_cases hstep
  · cases hstart
    simpa [Call.sends] using h
  · obtain ⟨front, back, hcalls, hset, -⟩ := exists_split hi l'
    rw [hcalls, flatMap_append, flatMap_cons] at h
    rw [hset, flatMap_append, flatMap_cons]
    refine perform_kept h ?_ hact
    rintro rfl
    cases op with
    | fire => rfl
    | go => simp [left, hi] at hok

/-- If the timer leaves the result alone, one result is sent, that of whoever took the request
first, nobody waits to send it, and it is there for the caller until the caller has it. -/
theorem request_answered
    (hs : Reaches (step link) (fun s e => left s e = true) (requested : System (Request V) _) s) :
    s.shared.done.sent.length ≤ 1 ∧ (∀ r ∈ s.shared.done.sent, s.shared.taken = some r) ∧
      s.shared.done.sent = s.shared.done.slot.toList ++ s.shared.got.toList ∧
      (s.shared.taken.isSome = true → s.calls.flatMap Call.sends = [] →
        s.shared.done.sent.length = 1) ∧
      ∀ i r op, s.calls[i]? = some (.sending r) → (step link s (.act i op)).isSome = true := by
  have h : Kept s.shared (s.calls.flatMap Call.sends) :=
    hs.invariant ⟨rfl, rfl⟩ fun _ _ _ h hok => kept_step h hok
  have hle := h.length_le
  refine ⟨by omega, fun r hr => ?_, h.2, fun htaken hnone => ?_, fun i r op hi => ?_⟩
  · have hmem : r ∈ s.shared.taken.toList := h.1 ▸ mem_append_right _ hr
    exact mem_toList.1 hmem
  · rw [hnone] at h
    rw [← nil_append s.shared.done.sent, h.1, length_toList, if_pos htaken]
  · obtain ⟨front, back, hcalls, -⟩ := exists_split hi .returned
    rw [hcalls, flatMap_append, flatMap_cons] at h
    have hdone := (Kept.free h).2.2.2.1
    simp [step, hi, link, perform, hdone, Channel.send]

/-- A response is about to be sent, and then has been sent. -/
theorem request_answered_in_time :
    (∃ s, Reaches (step link) (fun s e => left s e = true) (requested : System (Request Nat) _) s ∧
      (step link s (.act 2 .go)).isSome = true) ∧
    ∃ s, Reaches (step link) (fun s e => left s e = true) (requested : System (Request Nat) _) s ∧
      s.shared.taken = some (.response 7) ∧ s.shared.done.sent.length = 1 := by
  constructor
  · obtain ⟨s, hs, hsending, -, -, -, -, hfree⟩ := exists_reaches_and_of_decide
      (P := fun s => s.calls[2]? = some (.sending (.response 7)))
      [.start (some 7), .act 2 .go] (by decide +kernel)
      fun s (hs : Reaches (step link) _ requested s) => request_answered hs
    exact ⟨s, hs, hfree 2 _ .go hsending⟩
  · obtain ⟨s, hs, ⟨hmem, htaken, hnone⟩, -, hfirst, -, hone, -⟩ := exists_reaches_and_of_decide
      (P := fun s => .response 7 ∈ s.shared.done.sent ∧ s.shared.taken.isSome ∧
        s.calls.flatMap Call.sends = [])
      [.start (some 7), .act 2 .go, .act 2 .go] (by decide +kernel)
      fun s (hs : Reaches (step link) _ requested s) => request_answered hs
    exact ⟨s, hs, hfirst _ hmem, hone htaken hnone⟩

/-- The timer's goroutine receives the response, and nothing is left for the caller. -/
theorem response_lost :
    ∃ s, Reaches (step link) (fun _ _ => True) (requested : System (Request Nat) _) s ∧
      s.shared.done.sent.length = 1 ∧ s.shared.done.slot.isNone = true ∧
      s.shared.got.isNone = true := by
  exact exists_reaches_of_decide [.start (some 7), .act 2 .go, .act 2 .go, .act 0 .go]
    (by decide +kernel)

end MeshsatHub.Requests
