import Mathlib.Data.List.Basic

/-!
# Runs of a guarded step function

A system is a partial step function on states and events. `Reaches` collects the states of all runs
whose every step meets a condition on the state before it; `Reaches.invariant` carries what a step
keeps over runs.
-/

namespace MeshsatHub.Runs
variable {S E : Type*}

/-- The state after a list of events, if each of them can happen. -/
def replay (step : S → E → Option S) : S → List E → Option S
  | s, [] => some s
  | s, e :: rest => (step s e).bind fun t => replay step t rest

/-- The states reached from `s₀` by steps that meet `ok` where they are taken. -/
inductive Reaches (step : S → E → Option S) (ok : S → E → Prop) (s₀ : S) : S → Prop
  | refl : Reaches step ok s₀ s₀
  | tail {s t : S} (e : E) : Reaches step ok s₀ s → ok s e → step s e = some t →
      Reaches step ok s₀ t

/-- Every event of the list meets the condition in the state it happens in. -/
def Meets (step : S → E → Option S) (ok : S → E → Prop) : S → List E → Prop
  | _, [] => True
  | s, e :: rest => ok s e ∧ ∀ t, step s e = some t → Meets step ok t rest

variable {step : S → E → Option S} {ok : S → E → Prop}

/-- What holds initially and is kept by every permitted step holds in every
state reached. -/
theorem Reaches.invariant {Inv : S → Prop} {s₀ s : S} (h : Reaches step ok s₀ s)
    (hinit : Inv s₀) (hstep : ∀ s e t, Inv s → ok s e → step s e = some t → Inv t) : Inv s := by
  induction h with
  | refl => exact hinit
  | tail e _ hok heq ih => exact hstep _ e _ ih hok heq

/-- Runs can be continued. -/
theorem Reaches.trans {s₀ s t : S} (h₁ : Reaches step ok s₀ s) (h₂ : Reaches step ok s t) :
    Reaches step ok s₀ t := by
  induction h₂ with
  | refl => exact h₁
  | tail e _ hok heq ih => exact Reaches.tail e ih hok heq

/-- A replay whose events all meet the condition is such a run. -/
theorem reaches_of_replay {s t : S} (events : List E) (hok : Meets step ok s events)
    (h : replay step s events = some t) : Reaches step ok s t := by
  induction events generalizing s with
  | nil =>
    have hst : s = t := by simpa [replay] using h
    exact hst ▸ Reaches.refl
  | cons e rest ih =>
    obtain ⟨u, hu, hrest⟩ := Option.bind_eq_some_iff.1 h
    have hfirst : Reaches step ok s u := Reaches.tail e Reaches.refl hok.1 hu
    exact hfirst.trans (ih (hok.2 u hu) hrest)

/-- The step function that refuses what a check does not pass. -/
def guarded (step : S → E → Option S) (check : S → E → Bool) (s : S) (e : E) : Option S :=
  if check s e then step s e else none

variable {A : Type*} {view : S → A} {s : S} {a : A} {events : List E} {check : S → E → Bool}

/-- Without a condition every replay is a run. -/
theorem meets_true (s : S) (events : List E) : Meets step (fun _ _ => True) s events := by
  induction events generalizing s with
  | nil => trivial
  | cons e rest ih => exact ⟨trivial, fun t _ => ih t⟩

/-- What can be read off the end of a replay is read off a state reached. -/
theorem exists_reaches_of_replay (h : (replay step s events).map view = some a) :
    ∃ t, Reaches step (fun _ _ => True) s t ∧ view t = a := by
  obtain ⟨t, ht, hview⟩ := Option.map_eq_some_iff.1 h
  exact ⟨t, reaches_of_replay events (meets_true s events) ht, hview⟩

theorem exists_reaches_of_guarded (h : (replay (guarded step check) s events).map view = some a) :
    ∃ t, Reaches step (fun s e => check s e) s t ∧ view t = a := by
  obtain ⟨t, ht, hview⟩ := exists_reaches_of_replay h
  refine ⟨t, ?_, hview⟩
  clear hview
  induction ht with
  | refl => exact .refl
  | tail e _ _ hguarded ih =>
    obtain ⟨hcheck, hstep⟩ := Option.ite_none_right_eq_some.1 hguarded
    exact .tail e ih hcheck hstep

variable {P Q : S → Prop} [DecidablePred P]

section
variable (events : List E)
  (h : (replay step s events).map (fun t => decide (P t)) = some true)
include h

theorem exists_reaches_of_decide : ∃ t, Reaches step (fun _ _ => True) s t ∧ P t := by
  obtain ⟨t, ht, hdec⟩ := exists_reaches_of_replay h
  exact ⟨t, ht, of_decide_eq_true hdec⟩

theorem exists_reaches_and_of_replay (hQ : ∀ t, Reaches step (fun _ _ => True) s t → Q t) :
    ∃ t, Reaches step (fun _ _ => True) s t ∧ P t ∧ Q t := by
  obtain ⟨t, ht, hP⟩ := exists_reaches_of_decide events h
  exact ⟨t, ht, hP, hQ t ht⟩

theorem not_forall_of_decide (hQ : ∀ t, P t → ¬Q t) :
    ¬∀ t, Reaches step (fun _ _ => True) s t → Q t := by
  intro hall
  obtain ⟨t, ht, hP⟩ := exists_reaches_of_decide events h
  exact hQ t hP (hall t ht)

end

/-- The state also has what every state reached under the check has. -/
theorem exists_reaches_and_of_decide (events : List E)
    (h : (replay (guarded step check) s events).map (fun t => decide (P t)) = some true)
    (hQ : ∀ t, Reaches step (fun s e => check s e) s t → Q t) :
    ∃ t, Reaches step (fun s e => check s e) s t ∧ P t ∧ Q t := by
  obtain ⟨t, ht, hdec⟩ := exists_reaches_of_guarded h
  exact ⟨t, ht, of_decide_eq_true hdec, hQ t ht⟩

section Lists
variable {l : List A} {p : A → Prop}

/-- What holds of all entries of a log still does when an entry is added. -/
theorem all_mem_snoc (hl : ∀ x ∈ l, p x) (ha : p a) : ∀ x ∈ l ++ [a], p x :=
  List.forall_mem_append.2 ⟨hl, List.forall_mem_singleton.2 ha⟩

theorem all_mem_set {i : Nat} (hl : ∀ x ∈ l, p x) (ha : p a) : ∀ x ∈ l.set i a, p x :=
  fun x hx => (List.mem_or_eq_of_mem_set hx).elim (hl x) fun heq => heq ▸ ha

end Lists

end MeshsatHub.Runs
