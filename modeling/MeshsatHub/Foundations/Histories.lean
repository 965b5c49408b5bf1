import Mathlib.Data.List.Basic

/-!
# Histories

A history is a list of what has happened, oldest first. `Each` states a condition on every entry and
the entries before it; `Since` states that something has happened and nothing has undone it.
-/

namespace MeshsatHub.Histories
open List
variable {E : Type*} {ok : List E → E → Prop} {opens closes : E → Prop}
  {log before after : List E} {d e : E}

/-- An entry is the newest one or was there before it. -/
theorem split_snoc (h : log ++ [e] = before ++ d :: after) : (after = [] ∧ before = log ∧ d = e) ∨
      ∃ after', after = after' ++ [e] ∧ log = before ++ d :: after' := by
  obtain rfl | ⟨after', e', rfl⟩ := eq_nil_or_concat after
  · obtain ⟨hlog, he⟩ := append_inj' h rfl
    exact .inl ⟨rfl, hlog.symm, (singleton_injective he).symm⟩
  · rw [concat_eq_append, ← cons_append, ← append_assoc] at h
    obtain ⟨hlog, he⟩ := append_inj' h rfl
    obtain rfl : e = e' := singleton_injective he
    exact .inr ⟨after', concat_eq_append, hlog⟩

/-- Every entry meets the condition with what happened before it. -/
def Each (ok : List E → E → Prop) (log : List E) : Prop :=
  ∀ before e after, log = before ++ e :: after → ok before e

theorem each_nil : Each ok [] := by
  intro before e after h
  cases before <;> cases h

theorem each_snoc : Each ok (log ++ [e]) ↔ Each ok log ∧ ok log e := by
  constructor
  · intro h
    refine ⟨?_, h log e [] rfl⟩
    rintro before d after rfl
    exact h before d (after ++ [e]) (by simp)
  · rintro ⟨hlog, he⟩ before d after hsplit
    obtain ⟨-, rfl, rfl⟩ | ⟨after', -, rfl⟩ := split_snoc hsplit
    · exact he
    · exact hlog before d after' rfl

/-- Something has happened, and nothing since has undone it. -/
def Since (opens closes : E → Prop) (log : List E) : Prop :=
  ∃ before d after, log = before ++ d :: after ∧ opens d ∧ ∀ e ∈ after, ¬closes e

theorem not_since_nil : ¬Since opens closes [] := by
  rintro ⟨before, d, after, h, -⟩
  cases before <;> cases h

theorem since_snoc :
    Since opens closes (log ++ [e]) ↔ opens e ∨ ¬closes e ∧ Since opens closes log := by
  constructor
  · rintro ⟨before, d, after, hsplit, hopens, hafter⟩
    obtain ⟨-, -, rfl⟩ | ⟨after', rfl, hlog⟩ := split_snoc hsplit
    · exact .inl hopens
    · refine .inr ⟨hafter e (by simp), before, d, after', hlog, hopens, ?_⟩
      exact fun x hx => hafter x (mem_append_left _ hx)
  · rintro (hopens | ⟨hcloses, before, d, after, rfl, hopens, hafter⟩)
    · exact ⟨log, e, [], rfl, hopens, fun _ h => nomatch h⟩
    · refine ⟨before, d, after ++ [e], by simp, hopens, ?_⟩
      intro x hx
      obtain hx | hx := mem_append.1 hx
      · exact hafter x hx
      · exact mem_singleton.1 hx ▸ hcloses

end MeshsatHub.Histories
