import MeshsatHub.Directory.Rotation

/-!
# The rotation records of the tenants

As long as a fresh key is stored only over the key its call started from, the keys that have been
current form one chain of records for every tenant (`Keys.Inv`). `Keys.Evolves` says how far an
operation may move the stores.
-/

namespace MeshsatHub.Directory
open Follow Runs List Option

namespace Keys

def Offers (k : Keys) (key : Key) : Prop := k.pending = some key ∧ key ∉ k.history

structure Inv (tenants : List String) (k : Keys) : Prop where
  nodup : k.history.Nodup
  last : k.history.getLast? = some k.current
  linked : ∀ t ∈ tenants, k.history.IsChain fun a b => k.next t a = some b
  recorded : ∀ t a q, k.next t a = some q → a ∈ k.history
  ahead : ∀ t q, k.next t k.current = some q → k.Offers q
  pending : ∀ q, k.pending = some q → q ∈ k.history → q = k.current
  anchors : ∀ r, k.anchors r ∈ k.history
  bounded : ∀ a, a ∈ k.history ∨ k.pending = some a → a < k.fresh
  named : ∀ r ∈ k.records, r.newKeyID ∈ k.history ∨ k.pending = some r.newKeyID

/-- What the operations of any call may do to the stores. -/
structure Evolves (k k' : Keys) : Prop where
  history : k.history ⊆ k'.history
  past : ∀ a ∈ k.history, a ≠ k.current → a ≠ k'.current
  offered : ∀ q, k.Offers q →
    (k'.current = k.current ∧ k'.Offers q) ∨ (k'.current ≠ k.current ∧ q ∈ k'.history)
  records : ∀ t a q, k.next t a = some q → k'.next t a = some q

theorem Evolves.refl (k : Keys) : k.Evolves k :=
  ⟨fun _ h => h, fun _ _ h => h, fun _ h => Or.inl ⟨rfl, h⟩, fun _ _ _ h => h⟩

variable {tenants : List String} {k k' : Keys}

section
variable (h : k.Inv tenants)
include h

theorem Inv.current_mem : k.current ∈ k.history :=
  mem_of_getLast? h.last

theorem Inv.next_isSome {t : String} (ht : t ∈ tenants) {a : Key}
    (ha : a ∈ k.history) (hne : a ≠ k.current) : (k.next t a).isSome := by
  obtain ⟨b, _, hb⟩ := exists_edge_of_isChain (h.linked t ht) h.last ha hne
  rw [hb, isSome_some]

variable {key q : Key}

theorem Inv.setAnchor (hkey : key ∈ k.history) (replica : Nat) :
    (k.setAnchor replica key).Inv tenants where
  nodup := h.nodup
  last := h.last
  linked := h.linked
  recorded := h.recorded
  ahead := h.ahead
  pending := h.pending
  anchors r := by
    by_cases hr : r = replica
    · simpa only [Keys.setAnchor, hr, Function.update_self] using hkey
    · simpa only [Keys.setAnchor, Function.update_of_ne hr] using h.anchors r
  bounded := h.bounded
  named := h.named

omit h in
theorem evolves_setAnchor (k : Keys) (replica : Nat) (key : Key) :
    k.Evolves (k.setAnchor replica key) :=
  ⟨fun _ h => h, fun _ _ h => h, fun _ h => Or.inl ⟨rfl, h⟩, fun _ _ _ h => h⟩

theorem Inv.bumpVersion (tenantID : String) : (k.bumpVersion tenantID).Inv tenants :=
  { h with }

omit h in
theorem evolves_bumpVersion (k : Keys) (tenantID : String) : k.Evolves (k.bumpVersion tenantID) :=
  ⟨fun _ h => h, fun _ _ h => h, fun _ h => Or.inl ⟨rfl, h⟩, fun _ _ _ h => h⟩

omit h in
theorem not_offers_of_mem (hkey : key ∈ k.history) (hp : k.pending = some key) : ¬k.Offers q := by
  rintro ⟨hq, hnot⟩
  rw [hp] at hq
  exact hnot (some.inj hq ▸ hkey)

theorem Inv.clearPending (hkey : key ∈ k.history) : (k.clearPending key).Inv tenants := by
  by_cases hp : k.pending = some key
  · rw [Keys.clearPending, if_pos hp]
    refine { h with ahead := ?_, pending := ?_, bounded := ?_, named := ?_ }
    · intro t q hq
      exact absurd (h.ahead t q hq) (not_offers_of_mem hkey hp)
    · intro q hq
      cases hq
    · intro a ha
      exact h.bounded a (Or.inl (ha.resolve_right (by simp)))
    · intro r hr
      left
      obtain hmem | hpending := h.named r hr
      · exact hmem
      · rw [hp] at hpending
        exact some.inj hpending ▸ hkey
  · rw [Keys.clearPending, if_neg hp]
    exact h

omit h in
theorem evolves_clearPending (hkey : key ∈ k.history) : k.Evolves (k.clearPending key) := by
  by_cases hp : k.pending = some key
  · rw [Keys.clearPending, if_pos hp]
    exact ⟨fun _ h => h, fun _ _ h => h, fun q hq => absurd hq (not_offers_of_mem hkey hp),
      fun _ _ _ h => h⟩
  · rw [Keys.clearPending, if_neg hp]
    exact Evolves.refl k

theorem Inv.fresh_notMem : k.fresh ∉ k.history := fun hmem =>
  Nat.lt_irrefl _ (h.bounded k.fresh (Or.inl hmem))

theorem Inv.storePending : k.storePending.Inv tenants := by
  cases hp : k.pending with
  | none =>
    refine { h with ahead := ?_, pending := ?_, bounded := ?_, named := ?_ }
    · intro t q hq
      have hoffer := (h.ahead t q hq).1
      rw [hp] at hoffer
      cases hoffer
    · intro q hq hmem
      simp only [Keys.storePending, hp, getD_none, some.injEq] at hq
      exact absurd (hq ▸ hmem) h.fresh_notMem
    · intro a ha
      simp only [Keys.storePending, hp, getD_none, some.injEq] at ha ⊢
      obtain hmem | rfl := ha
      · exact Nat.lt_succ_of_lt (h.bounded a (Or.inl hmem))
      · exact Nat.lt_succ_self _
    · intro r hr
      left
      obtain hmem | hpending := h.named r hr
      · exact hmem
      · rw [hp] at hpending
        cases hpending
  | some q =>
    have hkeep : some (k.pending.getD k.fresh) = k.pending := by rw [hp, getD_some]
    refine { h with ahead := ?_, pending := ?_, bounded := ?_, named := ?_ }
    · intro t q hq
      exact ⟨hkeep.trans (h.ahead t q hq).1, (h.ahead t q hq).2⟩
    · intro q hq
      exact h.pending q (hkeep ▸ hq)
    · intro a ha
      exact Nat.lt_succ_of_lt (h.bounded a (ha.imp_right fun hq => hkeep ▸ hq))
    · intro r hr
      exact (h.named r hr).imp_right fun hq => hkeep.trans hq

omit h in
theorem evolves_storePending (k : Keys) : k.Evolves k.storePending := by
  refine ⟨fun _ h => h, fun _ _ h => h, ?_, fun _ _ _ h => h⟩
  intro q hq
  refine Or.inl ⟨rfl, ?_, hq.2⟩
  simp only [Keys.storePending, hq.1, getD_some]

theorem Inv.storePending_offers (hp : k.pending = none) : k.storePending.Offers k.fresh :=
  ⟨by simp only [Keys.storePending, hp, getD_none], h.fresh_notMem⟩

end

/-- A call may write records from `old` to `new`: what is not recorded yet is
recorded from the current key to the one on offer. -/
def Works (k : Keys) (old new : Key) : Prop :=
  old ∈ k.history ∧ (old = k.current → k.Offers new)

theorem Works.mono {old new : Key} (h : k.Works old new) (hev : k.Evolves k') :
    k'.Works old new := by
  refine ⟨hev.history h.1, fun hcurrent => ?_⟩
  by_cases hold : old = k.current
  · obtain ⟨_, hoffers⟩ | ⟨hmoved, _⟩ := hev.offered new (h.2 hold)
    · exact hoffers
    · exact absurd (hcurrent.symm.trans hold) hmoved
  · exact absurd hcurrent (hev.past old h.1 hold)

theorem next_cons (k : Keys) (r : Rotation) (versions : String → Nat) (t : String) (a : Key) :
    { k with records := r :: k.records, versions := versions }.next t a =
      if r.tenantID = t ∧ r.oldKeyID = a then some r.newKeyID else k.next t a := by
  by_cases h : r.tenantID = t ∧ r.oldKeyID = a <;> simp [next, byOld, h]

variable {replica : Nat} {tenantID : String} {old new : Key}
variable {added : Bool}

section
variable (h : k.appendRotation replica tenantID old new = some (k', added))
include h

/-- What `appendRotation` does: nothing, or one record from the old key, which
the tenant had none from. -/
theorem appendRotation_cases : (k' = k ∧ (k.next tenantID old).isSome) ∨
      (k.next tenantID old = none ∧ ∃ r : Rotation, ∃ versions : String → Nat,
        r.tenantID = tenantID ∧ r.oldKeyID = old ∧ r.newKeyID = new ∧
        k' = { k with records := r :: k.records, versions := versions }) := by
  cases hrec : byOld k.records tenantID old with
  | some r =>
    simp only [appendRotation, hrec, isSome_some, if_true, some.injEq, Prod.mk.injEq] at h
    refine Or.inl ⟨h.1.symm, ?_⟩
    rw [next, hrec, map_some, isSome_some]
  | none =>
    simp only [appendRotation, hrec, isSome_none, Bool.false_eq_true, if_false,
      map_eq_some_iff, Prod.mk.injEq] at h
    obtain ⟨envelope, _, rfl, _⟩ := h
    refine Or.inr ⟨?_, _, _, rfl, rfl, rfl, rfl⟩
    rw [next, hrec, map_none]

theorem appendRotation_next : (k'.next tenantID old).isSome := by
  obtain ⟨rfl, hsome⟩ | ⟨_, r, versions, rfl, rfl, _, rfl⟩ := appendRotation_cases h
  · exact hsome
  · rw [next_cons, if_pos ⟨rfl, rfl⟩, isSome_some]

theorem evolves_appendRotation : k.Evolves k' := by
  obtain ⟨rfl, _⟩ | ⟨hnone, r, versions, rfl, rfl, _, rfl⟩ := appendRotation_cases h
  · exact Evolves.refl _
  · refine ⟨fun _ h => h, fun _ _ h => h, fun _ h => Or.inl ⟨rfl, h⟩, fun t a q hq => ?_⟩
    rw [next_cons, if_neg]
    · exact hq
    · rintro ⟨rfl, rfl⟩
      rw [hnone] at hq
      cases hq

end

theorem Inv.appendRotation (hinv : k.Inv tenants) (ht : tenantID ∈ tenants)
    (hworks : k.Works old new) (h : k.appendRotation replica tenantID old new = some (k', added)) :
    k'.Inv tenants := by
  have hev := evolves_appendRotation h
  obtain ⟨rfl, _⟩ | ⟨hnone, r, versions, rfl, rfl, rfl, rfl⟩ := appendRotation_cases h
  · exact hinv
  · -- a key that is no longer current has a record already
    have hcurrent : r.oldKeyID = k.current := by
      apply Classical.byContradiction
      intro hne
      have hsome := hinv.next_isSome ht hworks.1 hne
      rw [hnone] at hsome
      cases hsome
    have hoffers : k.Offers r.newKeyID := hworks.2 hcurrent
    refine { hinv with linked := ?_, recorded := ?_, ahead := ?_, named := ?_ }
    · intro t ht
      exact (hinv.linked t ht).imp fun a b hab => hev.records t a b hab
    · intro t a q hq
      rw [next_cons] at hq
      split at hq
      · rename_i heq
        exact heq.2 ▸ hworks.1
      · exact hinv.recorded t a q hq
    · intro t q hq
      rw [next_cons] at hq
      split at hq
      · exact some.inj hq ▸ hoffers
      · exact hinv.ahead t q hq
    · intro r' hr'
      obtain rfl | hr' := mem_cons.1 hr'
      · exact Or.inr hoffers.1
      · exact hinv.named r' hr'

theorem Inv.activate (h : k.Inv tenants) (hoffers : k.Offers new)
    (hall : ∀ t ∈ tenants, (k.next t k.current).isSome) : (k.activate new).Inv tenants := by
  refine ⟨?_, ?_, ?_, ?_, ?_, ?_, ?_, ?_, ?_⟩
  · exact nodup_append.2 ⟨h.nodup, nodup_singleton new, fun a ha b hb hab =>
      hoffers.2 (mem_singleton.1 hb ▸ hab ▸ ha)⟩
  · simp only [Keys.activate, getLast?_append, getLast?_singleton, some_or]
  · intro t ht
    apply (h.linked t ht).append (isChain_singleton new)
    intro a ha b hb
    have hcurrent : k.current = a := some.inj (h.last.symm.trans ha)
    have hnew : new = b := by simpa using hb
    subst hcurrent hnew
    obtain ⟨q, hq⟩ := isSome_iff_exists.1 (hall t ht)
    have hqnew : some q = some new := (h.ahead t q hq).1.symm.trans hoffers.1
    exact hq.trans hqnew
  · intro t a q hq
    exact mem_append_left _ (h.recorded t a q hq)
  · intro t q hq
    exact absurd (h.recorded t new q hq) hoffers.2
  · intro q hq _
    exact some.inj (hq.symm.trans hoffers.1)
  · intro r
    exact mem_append_left _ (h.anchors r)
  · intro a ha
    obtain hmem | hp := ha
    · obtain hmem | hmem := mem_append.1 hmem
      · exact h.bounded a (Or.inl hmem)
      · exact h.bounded a (Or.inr (mem_singleton.1 hmem ▸ hoffers.1))
    · exact h.bounded a (Or.inr hp)
  · intro r hr
    exact (h.named r hr).imp_left (mem_append_left _)

theorem Inv.evolves_activate (h : k.Inv tenants) (hoffers : k.Offers new) :
    k.Evolves (k.activate new) := by
  have hmoved : new ≠ k.current := fun heq => hoffers.2 (heq ▸ h.current_mem)
  refine ⟨fun _ ha => mem_append_left _ ha, ?_, ?_, fun _ _ _ hq => hq⟩
  · intro a ha _ heq
    have hnew : a = new := heq
    exact hoffers.2 (hnew ▸ ha)
  · intro q hq
    have hqnew : q = new := some.inj (hq.1.symm.trans hoffers.1)
    exact Or.inr ⟨hmoved, hqnew ▸ mem_append_right _ (mem_singleton_self _)⟩

end Keys

variable {tenants : List String} {k : Keys} {t : String} {a : Key}

theorem byOld_mem_olds {records : List Rotation} {r : Rotation} (h : byOld records t a = some r) :
    a ∈ records.map Rotation.oldKeyID := by
  have hold : r.oldKeyID = a := by
    have hfound := find?_some h
    simp only [decide_eq_true_eq] at hfound
    exact hfound.2
  exact hold ▸ mem_map_of_mem (mem_of_find?_eq_some h)

theorem endOf_chain {keys : List Key} {z : Key}
    (hchain : keys.IsChain fun a b => k.next t a = some b)
    (hnodup : keys.Nodup) (hlast : keys.getLast? = some z) (hend : k.next t z = none)
    (ha : a ∈ keys) : endOf Rotation.newKeyID a (k.chain t a) = z := by
  apply endOf_follow_of_isChain (fun b r hr => byOld_mem_olds hr) _ hchain hnodup hlast _ ha
  · rw [length_map]
    exact Nat.lt_succ_self _
  · exact map_eq_none_iff.1 hend

section
variable (h : k.Inv tenants) (ht : t ∈ tenants) (ha : a ∈ k.history)
include h ht ha

theorem Keys.Inv.endOf_chain_current (hend : k.next t k.current = none) :
    endOf Rotation.newKeyID a (k.chain t a) = k.current :=
  endOf_chain (h.linked t ht) h.nodup h.last hend ha

theorem Keys.Inv.endOf_chain_ahead (hq : k.next t k.current = some q) :
    endOf Rotation.newKeyID a (k.chain t a) = q := by
  have hoffers := h.ahead t q hq
  have hchain : (k.history ++ [q]).IsChain fun a b => k.next t a = some b := by
    apply (h.linked t ht).append (isChain_singleton q)
    intro b hb c hc
    have hcurrent : k.current = b := some.inj (h.last.symm.trans hb)
    have hqc : q = c := by simpa using hc
    exact hcurrent ▸ hqc ▸ hq
  have hnodup : (k.history ++ [q]).Nodup := nodup_append.2
    ⟨h.nodup, nodup_singleton q, fun b hb c hc hbc =>
      hoffers.2 (mem_singleton.1 hc ▸ hbc ▸ hb)⟩
  apply endOf_chain hchain hnodup _ _ (mem_append_left _ ha)
  · rw [getLast?_append, getLast?_singleton, some_or]
  · apply eq_none_iff_forall_ne_some.2
    intro p hp
    exact hoffers.2 (h.recorded t q p hp)

theorem Keys.Inv.held_endOf_chain : k.Held (endOf Rotation.newKeyID a (k.chain t a)) := by
  cases hq : k.next t k.current with
  | none => exact Or.inl (h.endOf_chain_current ht ha hq)
  | some q =>
    rw [h.endOf_chain_ahead ht ha hq]
    exact Or.inr (h.ahead t q hq).1

end

end MeshsatHub.Directory
