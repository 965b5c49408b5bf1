import Mathlib.Data.List.Nodup

/-!
# Keyed tables

A table is a list of rows of which no two have the same key. What a statement does is said by what
is then found under a key; the lemmas on `Table.at` are all that is used of a table.
-/

namespace MeshsatHub.Tables
open List Function
variable {R K : Type*} {key : R → K}

structure Table (key : R → K) where
  rows : List R
  keyed : (rows.map key).Nodup

/-- Nothing is stored. -/
def Table.empty : Table key := ⟨[], nodup_nil⟩

def Table.write (t : Table key) (selects : R → Bool) (f : R → R)
    (hf : ∀ r, key (f r) = key r) : Table key where
  rows := t.rows.map fun r => if selects r then f r else r
  keyed := by
    have hkeys : key ∘ (fun r => if selects r then f r else r) = key := by
      funext r
      dsimp only [comp]
      split
      · exact hf r
      · rfl
    rw [map_map, hkeys]
    exact t.keyed

variable [DecidableEq K]

def Table.at (t : Table key) (k : K) : Option R := t.rows.find? fun r => key r = k

def Table.insert (t : Table key) (r : R) : Option (Table key) :=
  if h : key r ∈ t.rows.map key then none
  else some
    { rows := t.rows ++ [r]
      keyed := by
        rw [map_append, nodup_append]
        refine ⟨t.keyed, nodup_singleton _, ?_⟩
        rintro k hk k' hk' rfl
        rw [map_singleton, mem_singleton] at hk'
        exact h (hk' ▸ hk) }

variable {t t' : Table key} {k : K} {r : R}

theorem key_of_at (h : t.at k = some r) : key r = k := by
  simpa using find?_some h

theorem mem_of_at (h : t.at k = some r) : r ∈ t.rows := mem_of_find?_eq_some h

theorem at_of_mem (h : r ∈ t.rows) : t.at (key r) = some r := by
  have hsome : (t.at (key r)).isSome := by
    rw [Table.at, find?_isSome]
    exact ⟨r, h, by simp⟩
  obtain ⟨u, hu⟩ := Option.isSome_iff_exists.1 hsome
  rw [hu, inj_on_of_nodup_map t.keyed (mem_of_at hu) h (key_of_at hu)]

@[simp] theorem at_empty : (Table.empty : Table key).at k = none := rfl

variable {selects : R → Bool} {f : R → R}

theorem at_of_find (hselects : ∀ r, selects r → key r = k)
    (h : t.rows.find? selects = some r) : t.at k = some r ∧ selects r := by
  have hselected : selects r := find?_some h
  have hat := at_of_mem (mem_of_find?_eq_some h)
  rw [hselects r hselected] at hat
  exact ⟨hat, hselected⟩

theorem any_iff (hselects : ∀ r, selects r → key r = k) :
    t.rows.any selects ↔ ∃ r, t.at k = some r ∧ selects r := by
  rw [any_eq_true]
  constructor
  · rintro ⟨r, hr, hselected⟩
    exact ⟨r, hselects r hselected ▸ at_of_mem hr, hselected⟩
  · rintro ⟨r, hat, hselected⟩
    exact ⟨r, mem_of_at hat, hselected⟩

theorem at_write {hf : ∀ r, key (f r) = key r} :
    (t.write selects f hf).at k = (t.at k).map fun r => if selects r then f r else r := by
  have hkeys : (fun r => decide (key r = k)) ∘ (fun r => if selects r then f r else r) =
      fun r => decide (key r = k) := by
    funext r
    dsimp only [comp]
    split
    · rw [hf r]
    · rfl
  rw [Table.at, Table.write, find?_map, hkeys, Table.at]

theorem at_write_ne (hf : ∀ r, key (f r) = key r) {k' : K} (hselects : ∀ r, selects r → key r = k')
    (hk : k ≠ k') : (t.write selects f hf).at k = t.at k := by
  rw [at_write]
  cases hat : t.at k with
  | none => rfl
  | some r =>
    have hnot : ¬selects r := fun h => hk (key_of_at hat ▸ hselects r h)
    rw [Option.map_some, if_neg hnot]

/-- An insert that went through found nothing under its key. -/
theorem at_insert (h : t.insert r = some t') :
    t.at (key r) = none ∧ ∀ k, t'.at k = if k = key r then some r else t.at k := by
  unfold Table.insert at h
  split at h
  · cases h
  case isFalse hnew =>
    cases h
    have hnone : t.at (key r) = none := by
      rw [Table.at, find?_eq_none]
      intro u hu hkey
      exact hnew (mem_map.2 ⟨u, hu, by simpa using hkey⟩)
    refine ⟨hnone, fun k => ?_⟩
    simp only [Table.at, find?_append, find?_singleton]
    by_cases hk : k = key r
    · subst hk
      rw [Table.at] at hnone
      simp [hnone]
    · have hne : ¬key r = k := fun h => hk h.symm
      simp [hk, hne]

variable {V : Type*} {m : K → Option V} {at' k : K} {value : Option V} {v : V} {p : V → Prop}

theorem update_cases (h : update m at' value k = some v) :
    k = at' ∧ value = some v ∨ k ≠ at' ∧ m k = some v := by
  by_cases heq : k = at'
  · subst heq
    rw [update_self] at h
    exact .inl ⟨rfl, h⟩
  · rw [update_of_ne heq] at h
    exact .inr ⟨heq, h⟩

/-- A condition on every value of a map survives an update with such a value. -/
theorem forall_update (h : ∀ k v, m k = some v → p v) (hvalue : ∀ v, value = some v → p v)
    (k : K) (v : V) (hk : update m at' value k = some v) : p v := by
  obtain ⟨-, hv⟩ | ⟨-, hv⟩ := update_cases hk
  · exact hvalue v hv
  · exact h k v hv

omit [DecidableEq K] in
theorem forall_filter (h : ∀ k v, m k = some v → p v) (keep : V → Bool) (k : K) (v : V)
    (hk : (m k).filter keep = some v) : p v :=
  h k v (Option.eq_some_of_filter_eq_some hk)

end MeshsatHub.Tables
