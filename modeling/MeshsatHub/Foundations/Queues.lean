import Mathlib

/-!
# Queues of a bounded length

A queue that is offered an entry while it is full gives up its oldest one. Everything that was put
on it has left it or is waiting, in that order.
-/

namespace MeshsatHub.Queues
variable {J : Type*}

/-- What happens to a queue. -/
inductive Move (J : Type*) where
  | put (j : J)
  | taken (j : J)
  | displaced (old new : J)
  deriving DecidableEq

def Move.arrival : Move J → Option J
  | .put j => some j
  | .taken _ => none
  | .displaced _ _ => none

def Move.departure : Move J → Option J
  | .put _ => none
  | .taken j => some j
  | .displaced old _ => some old

/-- The entries that are waiting, the oldest first, and all that happened before. -/
structure Queue (J : Type*) where
  waiting : List J
  history : List (Move J)
  fifo : history.filterMap Move.arrival = history.filterMap Move.departure ++ waiting

def Queue.empty : Queue J := ⟨[], [], rfl⟩

/-- The oldest entry is taken. -/
def Queue.take (q : Queue J) : Option (Queue J) :=
  match h : q.waiting with
  | [] => none
  | j :: rest => some
      { waiting := rest
        history := q.history ++ [.taken j]
        fifo := by
          rw [List.filterMap_append, List.filterMap_append, q.fifo, h]
          simp [Move.arrival, Move.departure] }

/-- An entry is put on the queue, in the place of the oldest one if there is no other. -/
def Queue.offer (q : Queue J) (capacity : Nat) (j : J) : Queue J :=
  if q.waiting.length < capacity then
    { waiting := q.waiting ++ [j]
      history := q.history ++ [.put j]
      fifo := by
        rw [List.filterMap_append, List.filterMap_append, q.fifo]
        simp [Move.arrival, Move.departure] }
  else
    match h : q.waiting with
    | [] => q
    | old :: rest =>
      { waiting := rest ++ [j]
        history := q.history ++ [.displaced old j, .put j]
        fifo := by
          rw [List.filterMap_append, List.filterMap_append, q.fifo, h]
          simp [List.filterMap_cons, Move.arrival, Move.departure] }

variable {q q' : Queue J} {capacity : Nat} {j : J}

theorem take_spec (h : q.take = some q') :
    ∃ old, q.waiting = old :: q'.waiting ∧ q'.history = q.history ++ [.taken old] := by
  unfold Queue.take at h
  split at h
  · cases h
  case h_2 old rest hwaiting =>
    cases h
    exact ⟨old, hwaiting, rfl⟩

/-- What an offer does to a queue that can hold something. -/
theorem offer_spec (hcapacity : 0 < capacity) :
    (q.waiting.length < capacity ∧ (q.offer capacity j).waiting = q.waiting ++ [j] ∧
        (q.offer capacity j).history = q.history ++ [.put j]) ∨
      ∃ old rest, ¬q.waiting.length < capacity ∧ q.waiting = old :: rest ∧
        (q.offer capacity j).waiting = rest ++ [j] ∧
        (q.offer capacity j).history = q.history ++ [.displaced old j, .put j] := by
  unfold Queue.offer
  split
  case isTrue hroom => exact .inl ⟨hroom, rfl, rfl⟩
  case isFalse hfull =>
    refine .inr ?_
    split
    case h_1 hnil =>
      rw [hnil] at hfull
      exact absurd hcapacity hfull
    case h_2 old rest hwaiting => exact ⟨old, rest, hfull, hwaiting, rfl, rfl⟩

theorem mem_of_put (h : .put j ∈ q.history) :
    j ∈ q.waiting ∨ .taken j ∈ q.history ∨ ∃ new, .displaced j new ∈ q.history := by
  have hmem : j ∈ q.history.filterMap Move.departure ++ q.waiting := by
    rw [← q.fifo]
    exact List.mem_filterMap.2 ⟨_, h, rfl⟩
  obtain hleft | hwaits := List.mem_append.1 hmem
  · obtain ⟨move, hmove, hdeparture⟩ := List.mem_filterMap.1 hleft
    cases move with cases hdeparture
    | taken i => exact .inr (.inl hmove)
    | displaced old new => exact .inr (.inr ⟨new, hmove⟩)
  · exact .inl hwaits

end MeshsatHub.Queues
