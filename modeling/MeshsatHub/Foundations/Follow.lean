import Mathlib

/-!
# Following edges out of a node

Every node has at most one edge out of it. `follow` collects the edges met from a node on and stops
at a node without an edge or at one it has been at before.
-/

namespace MeshsatHub.Follow
open List
variable {K E : Type*} [DecidableEq K]

/-- The edges met from a node on. -/
def follow (edge : K → Option E) (target : E → K) : Nat → List K → K → List E
  | 0, _, _ => []
  | fuel + 1, seen, k =>
    if k ∈ seen then []
    else
      match edge k with
      | none => []
      | some e => e :: follow edge target fuel (k :: seen) (target e)

/-- The node the edges lead to from `k`. -/
def endOf (target : E → K) (k : K) (path : List E) : K := (path.map target).getLastD k

variable {edge : K → Option E} {target : E → K}
variable {fuel : Nat} {k : K} {seen sources ks : List K}

theorem follow_none (h : edge k = none) : follow edge target fuel seen k = [] := by
  cases fuel with
  | zero => rfl
  | succ fuel => simp [follow, h]

theorem follow_some {e : E} (hk : k ∉ seen) (h : edge k = some e) :
    follow edge target (fuel + 1) seen k = e :: follow edge target fuel (k :: seen) (target e) := by
  simp [follow, hk, h]

/-- Meeting a node leaves fewer to meet. -/
theorem length_unseen_lt (hk : k ∈ sources) (hseen : k ∉ seen) :
    (sources.filter (· ∉ k :: seen)).length < (sources.filter (· ∉ seen)).length := by
  have hsplit : sources.filter (· ∉ k :: seen) = (sources.filter (· ∉ seen)).filter (· ≠ k) := by
    rw [filter_filter]
    apply filter_congr
    intro x _
    simp [not_or]
  rw [hsplit]
  apply length_filter_lt_length_iff_exists.2
  exact ⟨k, by simp [hk, hseen], by simp⟩

/-- A bound that exceeds the number of unmet nodes with an edge does not show. -/
theorem follow_bound (hsource : ∀ k e, edge k = some e → k ∈ sources) {fuel₁ fuel₂ : Nat}
    (h₁ : (sources.filter (· ∉ seen)).length < fuel₁)
    (h₂ : (sources.filter (· ∉ seen)).length < fuel₂) :
    follow edge target fuel₁ seen k = follow edge target fuel₂ seen k := by
  induction fuel₁ generalizing fuel₂ seen k with
  | zero => omega
  | succ fuel₁ ih =>
    obtain ⟨fuel₂, rfl⟩ : ∃ m, fuel₂ = m + 1 := ⟨fuel₂ - 1, by omega⟩
    by_cases hk : k ∈ seen
    · simp [follow, hk]
    · cases he : edge k with
      | none => rw [follow_none he, follow_none he]
      | some e =>
        have hlt := length_unseen_lt (hsource k e he) hk
        rw [follow_some hk he, follow_some hk he]
        exact congrArg (e :: ·) (ih (by omega) (by omega))

/-- Along linked nodes that do not repeat, up to one without an edge, exactly
these nodes are met. -/
theorem map_target_follow (hchain : (k :: ks).IsChain fun a b => (edge a).map target = some b)
    (hnodup : (k :: ks).Nodup) (hseen : ∀ x ∈ k :: ks, x ∉ seen)
    (hend : edge (ks.getLastD k) = none) (hfuel : ks.length < fuel) :
    (follow edge target fuel seen k).map target = ks := by
  induction ks generalizing fuel seen k with
  | nil => rw [follow_none (by simpa using hend), map_nil]
  | cons x ks ih =>
    obtain ⟨fuel, rfl⟩ : ∃ m, fuel = m + 1 := ⟨fuel - 1, by omega⟩
    obtain ⟨hlink, htail⟩ := isChain_cons_cons.1 hchain
    obtain ⟨hk, hrest⟩ := nodup_cons.1 hnodup
    obtain ⟨e, he, rfl⟩ := Option.map_eq_some_iff.1 hlink
    have hunmet : ∀ y ∈ target e :: ks, y ∉ k :: seen := by
      intro y hy hmem
      obtain rfl | hold := mem_cons.1 hmem
      · exact hk hy
      · exact hseen y (mem_cons_of_mem k hy) hold
    rw [follow_some (hseen k (by simp)) he, map_cons]
    congr 1
    apply ih htail hrest hunmet
    · simpa only [getLastD_cons] using hend
    · simpa using hfuel

omit [DecidableEq K] in
/-- In a linked list every node but the last has an edge to another of its nodes. -/
theorem exists_edge_of_isChain {R : K → K → Prop} {a z : K} (hchain : ks.IsChain R)
    (hlast : ks.getLast? = some z) (ha : a ∈ ks) (hne : a ≠ z) : ∃ b ∈ ks, R a b := by
  obtain ⟨before, after, rfl⟩ := append_of_mem ha
  cases after with
  | nil =>
    rw [getLast?_append, getLast?_singleton, Option.some_or] at hlast
    exact absurd (Option.some.inj hlast) hne
  | cons b after =>
    have hlink := (isChain_cons_cons.1 hchain.right_of_append).1
    exact ⟨b, by simp, hlink⟩

/-- From any node of a linked list without repetition, whose last node has no
edge, the edges lead to that last node. -/
theorem endOf_follow_of_isChain {a z : K} (hsource : ∀ k e, edge k = some e → k ∈ sources)
    (hfuel : sources.length < fuel) (hchain : ks.IsChain fun a b => (edge a).map target = some b)
    (hnodup : ks.Nodup) (hlast : ks.getLast? = some z) (hend : edge z = none) (ha : a ∈ ks) :
    endOf target a (follow edge target fuel [] a) = z := by
  obtain ⟨before, after, rfl⟩ := append_of_mem ha
  have hz : after.getLastD a = z := by
    rw [getLast?_append, getLast?_cons, Option.some_or] at hlast
    rw [getLastD_eq_getLast?]
    exact Option.some.inj hlast
  have hunmet : (sources.filter (· ∉ ([] : List K))).length = sources.length := by simp
  -- a bound that also covers the rest of the list
  have hwalk : follow edge target fuel [] a =
      follow edge target (sources.length + after.length + 1) [] a := by
    apply follow_bound hsource <;> omega
  rw [endOf, hwalk, map_target_follow hchain.right_of_append (nodup_append.1 hnodup).2.1
    (by simp) (hz.symm ▸ hend) (by omega), hz]

end MeshsatHub.Follow
