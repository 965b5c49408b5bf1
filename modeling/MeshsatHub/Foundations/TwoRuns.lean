import Mathlib.Data.List.Sort

/-!
# Two runs that differ in hidden work

A total step function is folded over two lists of work. Hidden work, done on one side only, must not
be visible in the relation between the two states.
-/

namespace MeshsatHub.TwoRuns
open List
variable {S E : Type*}

/-- Every event meets the condition in the state in which it is handled. -/
def Along (step : S → E → S) (ok : S → E → Prop) : S → List E → Prop
  | _, [] => True
  | s, e :: rest => ok s e ∧ Along step ok (step s e) rest

variable {step : S → E → S} {ok ok' : S → E → Prop} {hidden : E → Bool}
  {Same : E → E → Prop} {Related : S → S → Prop} {s t : S} {work : List E}

/-- A condition that always holds holds along every run. -/
theorem Along.of_forall (h : ∀ e ∈ work, ∀ t, ok t e) : Along step ok s work := by
  induction work generalizing s with
  | nil => trivial
  | cons e rest ih => exact ⟨h e (by simp) s, ih fun d hd => h d (mem_cons_of_mem e hd)⟩

/-- Weakening the condition keeps it along the run. -/
theorem Along.mono (h : Along step ok s work)
    (hmono : ∀ e ∈ work, ∀ t, ok t e → ok' t e) : Along step ok' s work := by
  induction work generalizing s with
  | nil => trivial
  | cons e rest ih =>
    refine ⟨hmono e (by simp) s h.1, ih h.2 ?_⟩
    exact fun d hd => hmono d (mem_cons_of_mem e hd)

/-- Two runs whose visible work agrees item by item end related. -/
theorem foldl_related (hidden : E → Bool)
    (hleft : ∀ s t e, hidden e → ok s e → Related s t → Related (step s e) t)
    (hright : ∀ s t e, hidden e → ok' t e → Related s t → Related s (step t e))
    (hboth : ∀ s t d e, hidden d = false → Same d e → ok s d → ok' t e → Related s t →
      Related (step s d) (step t e)) (work work' : List E)
    (hsame : List.Forall₂ Same (work.filter fun e => !hidden e) (work'.filter fun e => !hidden e))
    (hs : Along step ok s work) (ht : Along step ok' t work') (h : Related s t) :
    Related (work.foldl step s) (work'.foldl step t) := by
  induction work generalizing s t work' with
  | nil =>
    -- everything left on the right is hidden
    induction work' generalizing t with
    | nil => exact h
    | cons e rest ih =>
      cases he : hidden e with
      | true => exact ih (by simpa [he] using hsame) ht.2 (hright s t e he ht.1 h)
      | false => simp [he] at hsame
  | cons d rest ih =>
    cases hd : hidden d with
    | true =>
      have hrest := hleft s t d hd hs.1 h
      exact ih work' (by simpa [hd] using hsame) hs.2 ht hrest
    | false =>
      -- skip the hidden work on the right up to the partner of `d`
      induction work' generalizing t with
      | nil => simp [hd] at hsame
      | cons e rest' ih' =>
        cases he : hidden e with
        | true => exact ih' (by simpa [hd, he] using hsame) ht.2 (hright s t e he ht.1 h)
        | false =>
          rw [filter_cons_of_pos (by simp [hd]), filter_cons_of_pos (by simp [he])] at hsame
          cases hsame with
          | cons hde hrest => exact ih rest' hrest hs.2 ht.2 (hboth s t d e hd hde hs.1 ht.1 h)

theorem foldl_related_of_forall (hidden : E → Bool)
    (hleft : ∀ s t e, hidden e → Related s t → Related (step s e) t)
    (hright : ∀ s t e, hidden e → Related s t → Related s (step t e))
    (hboth : ∀ s t d e, hidden d = false → Same d e → Related s t →
      Related (step s d) (step t e)) (work work' : List E)
    (hsame : List.Forall₂ Same (work.filter fun e => !hidden e) (work'.filter fun e => !hidden e))
    (h : Related s t) : Related (work.foldl step s) (work'.foldl step t) := by
  have hs : Along step (fun _ _ => True) s work := Along.of_forall fun _ _ _ => trivial
  have ht : Along step (fun _ _ => True) t work' := Along.of_forall fun _ _ _ => trivial
  refine foldl_related hidden ?_ ?_ ?_ work work' hsame hs ht h
  · exact fun s t e he _ hst => hleft s t e he hst
  · exact fun s t e he _ hst => hright s t e he hst
  · exact fun s t d e hd hde _ _ hst => hboth s t d e hd hde hst

/-- Leaving the hidden events out of a run leads to a related state. -/
theorem foldl_related_filter (events : List E)
    (hhidden : ∀ e ∈ events, hidden e → ∀ s t, Related s t → Related (step s e) t)
    (hshown : ∀ e ∈ events, hidden e = false → ∀ s t, Related s t →
      Related (step s e) (step t e)) (h : Related s t) :
    Related (events.foldl step s) ((events.filter fun e => !hidden e).foldl step t) := by
  have hleft : Along step (fun _ e => e ∈ events) s events := Along.of_forall fun e he _ => he
  have hright : Along step (fun _ e => hidden e = false) t (events.filter fun e => !hidden e) :=
    Along.of_forall fun e he _ => by simpa using (mem_filter.1 he).2
  have hsame : Forall₂ (fun d e => d = e) (events.filter fun e => !hidden e)
      ((events.filter fun e => !hidden e).filter fun e => !hidden e) := by
    rw [filter_filter, forall₂_eq_eq_eq]
    simp
  refine foldl_related hidden ?_ ?_ ?_ _ _ hsame hleft hright h
  · exact fun s t e he hmem hst => hhidden e hmem he s t hst
  · exact fun s t e he hshow _ => absurd he (by simp [hshow])
  · rintro s t d e hd rfl hmem - hst
    exact hshown d hmem hd s t hst

variable {α : Type*} (r : α → α → Prop) [DecidableRel r] [Std.Total r] [IsTrans α r]
variable (p : α → Bool)

omit [Std.Total r] in
theorem filter_orderedInsert (a : α) {l : List α} (hl : l.Pairwise r) :
    (l.orderedInsert r a).filter p =
      if p a then (l.filter p).orderedInsert r a else l.filter p := by
  induction l with
  | nil => cases hp : p a <;> simp [hp]
  | cons b l ih =>
    rw [pairwise_cons] at hl
    rw [orderedInsert_cons]
    split
    case isTrue hab =>
      -- `a` is in front of everything that is left
      have hfront : ∀ l' : List α, (∀ c ∈ l', r a c) → l'.orderedInsert r a = a :: l' := by
        intro l' hl'
        cases l' with
        | nil => rfl
        | cons c l' => rw [orderedInsert_cons, if_pos (hl' c (by simp))]
      have hle : ∀ c ∈ (b :: l).filter p, r a c := by
        intro c hc
        obtain rfl | hc := mem_cons.1 (mem_of_mem_filter hc)
        · exact hab
        · exact trans_of r hab (hl.1 c hc)
      rw [hfront _ hle, filter_cons]
    case isFalse hab =>
      rw [filter_cons, ih hl.2, filter_cons]
      cases hb : p b <;> cases ha : p a <;> simp [hab]

/-- A stable sort keeps the kept items in the order they have when sorted alone. -/
theorem filter_insertionSort (l : List α) :
    (l.insertionSort r).filter p = (l.filter p).insertionSort r := by
  induction l with
  | nil => rfl
  | cons a l ih =>
    rw [insertionSort_cons, filter_orderedInsert r p a (pairwise_insertionSort r l), ih,
      filter_cons]
    cases p a <;> simp

end MeshsatHub.TwoRuns
