import Mathlib.Data.List.Basic

/-!
# Procedures that ask for operations

A procedure is a value or an operation to ask for together with what to do on each answer. `run`
lets surroundings with a state answer. A `Discipline` says which operations may be asked for and
which answers have to be expected; what is known about the runs of a procedure comes from its
`Follows`.
-/

namespace MeshsatHub.Procedures
variable {Op : Type} {Ans : Op → Type} {α β σ S C E : Type}

/-- A value, or an operation and what follows each of its answers. -/
inductive Proc (Op : Type) (Ans : Op → Type) (α : Type) where
  | done (value : α)
  | ask (op : Op) (next : Ans op → Proc Op Ans α)

def Proc.bind : Proc Op Ans α → (α → Proc Op Ans β) → Proc Op Ans β
  | .done a, f => f a
  | .ask op next, f => .ask op fun answer => (next answer).bind f

instance : Monad (Proc Op Ans) where
  pure := .done
  bind := .bind

/-- Ask for one operation and return its answer. -/
def perform (op : Op) : Proc Op Ans (Ans op) := .ask op .done

/-- Which operations may be asked for in a phase, which answers to expect, and
the phase after an answer. -/
structure Discipline (Op : Type) (Ans : Op → Type) (σ : Type) where
  allows : σ → Op → Prop
  may : σ → (op : Op) → Ans op → Prop
  advance : σ → (op : Op) → Ans op → σ

/-- The procedure keeps to the discipline, and what it returns suits the phase
it ends in. -/
def Proc.Follows (d : Discipline Op Ans σ) (post : α → σ → Prop) : Proc Op Ans α → σ → Prop
  | .done a, phase => post a phase
  | .ask op next, phase => d.allows phase op ∧
      ∀ answer, d.may phase op answer → (next answer).Follows d post (d.advance phase op answer)

variable {d : Discipline Op Ans σ} {post : α → σ → Prop} {out : β → σ → Prop} {phase : σ}
variable {p : Proc Op Ans α} {op : Op}

theorem Proc.Follows.bind {f : α → Proc Op Ans β} (hp : p.Follows d post phase)
    (hf : ∀ a phase', post a phase' → (f a).Follows d out phase') :
    (p >>= f).Follows d out phase := by
  induction p generalizing phase with
  | done a => exact hf a phase hp
  | ask op next ih => exact ⟨hp.1, fun answer hmay => ih answer (hp.2 answer hmay)⟩

/-- What keeps to a discipline keeps to one that allows more and expects less. -/
theorem Proc.Follows.mono {τ : Type} {d' : Discipline Op Ans τ} {post' : α → τ → Prop}
    (view : σ → τ) (hallows : ∀ phase op, d.allows phase op → d'.allows (view phase) op)
    (hmay : ∀ phase op answer, d.allows phase op → d'.may (view phase) op answer →
      d.may phase op answer)
    (hadvance : ∀ phase op answer, d.allows phase op → d'.may (view phase) op answer →
      d'.advance (view phase) op answer = view (d.advance phase op answer))
    (hpost : ∀ a phase, post a phase → post' a (view phase)) (h : p.Follows d post phase) :
    p.Follows d' post' (view phase) := by
  induction p generalizing phase with
  | done a => exact hpost a phase h
  | ask op next ih =>
    refine ⟨hallows phase op h.1, fun answer hanswer => ?_⟩
    rw [hadvance phase op answer h.1 hanswer]
    exact ih answer (h.2 answer (hmay phase op answer h.1 hanswer))

theorem follows_perform {post : Ans op → σ → Prop} (hallows : d.allows phase op)
    (h : ∀ answer, d.may phase op answer → post answer (d.advance phase op answer)) :
    (perform op : Proc Op Ans (Ans op)).Follows d post phase := ⟨hallows, h⟩

/-- The procedure that first asks for an operation. -/
theorem follows_perform_bind {f : Ans op → Proc Op Ans β} (hallows : d.allows phase op)
    (h : ∀ answer, d.may phase op answer → (f answer).Follows d out (d.advance phase op answer)) :
    (perform op >>= f).Follows d out phase := ⟨hallows, h⟩

theorem follows_ite {c : Prop} [Decidable c] {q : Proc Op Ans α} (hp : c → p.Follows d post phase)
    (hq : ¬c → q.Follows d post phase) : (if c then p else q).Follows d post phase := by
  split
  case isTrue h => exact hp h
  case isFalse h => exact hq h

/-- What the surroundings do on an operation. -/
structure Reply (S E A : Type) where
  state : S
  emits : List E
  answer : A

/-- An operation together with the state and the choice it meets. -/
structure Visit (S C Op : Type) where
  before : S
  choice : C
  op : Op

/-- How a run ends, and the way there. -/
structure Ended (S C Op E α : Type) where
  state : S
  visits : List (Visit S C Op)
  emits : List E
  value : α

/-- The run of a procedure, each operation with a choice of its own. -/
def Proc.run (respond : S → C → (op : Op) → Reply S E (Ans op)) :
    Proc Op Ans α → (Nat → C) → S → Ended S C Op E α
  | .done a, _, s => ⟨s, [], [], a⟩
  | .ask op next, choices, s =>
    let reply := respond s (choices 0) op
    let rest := (next reply.answer).run respond (fun n => choices (n + 1)) reply.state
    ⟨rest.state, ⟨s, choices 0, op⟩ :: rest.visits, reply.emits ++ rest.emits, rest.value⟩

variable {respond : S → C → (op : Op) → Reply S E (Ans op)}
variable {choices : Nat → C} {s : S}

/-- A procedure that returns on the answer to its only operation. -/
theorem run_ask_done {next : Ans op → Proc Op Ans α} {a : α}
    (h : next (respond s (choices 0) op).answer = .done a) :
    (Proc.ask op next).run respond choices s = ⟨(respond s (choices 0) op).state,
      [⟨s, choices 0, op⟩], (respond s (choices 0) op).emits, a⟩ := by
  simp [Proc.run, h]

theorem mem_emits_iff {e : E} : e ∈ (p.run respond choices s).emits ↔
      ∃ v ∈ (p.run respond choices s).visits, e ∈ (respond v.before v.choice v.op).emits := by
  induction p generalizing choices s with
  | done a => simp [Proc.run]
  | ask op next ih => simp only [Proc.run, List.mem_append, List.exists_mem_cons_iff, ih]

variable {I : S → Prop}

section
variable
  (hstep : ∀ phase s c op, I s → d.allows phase op →
    I (respond s c op).state ∧ d.may phase op (respond s c op).answer)
  (hp : p.Follows d post phase) (hs : I s)
include hstep hp hs

/-- Along a run the invariant holds and every operation is one the discipline allows. -/
theorem run_visits :
    ∀ v ∈ (p.run respond choices s).visits, I v.before ∧ ∃ phase', d.allows phase' v.op := by
  induction p generalizing phase choices s with
  | done a => exact fun v hv => absurd hv (by simp [Proc.run])
  | ask op next ih =>
    intro v hv
    obtain ⟨hstate, hmay⟩ := hstep phase s (choices 0) op hs hp.1
    obtain rfl | hv := List.mem_cons.1 hv
    · exact ⟨hs, phase, hp.1⟩
    · exact ih _ (hp.2 _ hmay) hstate v hv

/-- The invariant holds at the end of a run. -/
theorem run_state : I (p.run respond choices s).state := by
  induction p generalizing phase choices s with
  | done a => exact hs
  | ask op next ih =>
    obtain ⟨hstate, hmay⟩ := hstep phase s (choices 0) op hs hp.1
    exact ih _ (hp.2 _ hmay) hstate

end

theorem run_related {Related : S → S → Prop}
    (hstep : ∀ phase s t c op, Related s t → d.allows phase op →
      Related (respond s c op).state (respond t c op).state ∧
      (respond s c op).emits = (respond t c op).emits ∧
      (respond s c op).answer = (respond t c op).answer ∧ d.may phase op (respond t c op).answer)
    {t : S} (hp : p.Follows d post phase) (h : Related s t) :
    Related (p.run respond choices s).state (p.run respond choices t).state ∧
      (p.run respond choices s).emits = (p.run respond choices t).emits ∧
      (p.run respond choices s).value = (p.run respond choices t).value := by
  induction p generalizing phase choices s t with
  | done a => exact ⟨h, rfl, rfl⟩
  | ask op next ih =>
    obtain ⟨hstate, hemits, hanswer, hmay⟩ := hstep phase s t (choices 0) op h hp.1
    obtain ⟨hrest, hemits', hvalue⟩ := ih _ (hp.2 _ hmay) hstate
    simp only [Proc.run, hemits, hanswer]
    exact ⟨hrest, by rw [hemits'], hvalue⟩

end MeshsatHub.Procedures
