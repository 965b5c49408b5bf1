import MeshsatHub.Directory.Records

/-!
# Following the rotation records

A bridge that pinned a key follows the tenant's records from it, while any number of rotations are
under way. `Stage.Inv` is what a call relies on between its operations.
-/

namespace MeshsatHub.Directory
open Follow Runs List

/-- What a call relies on before its next operation. -/
def Stage.Inv (tenants : List String) (k : Keys) : Stage → Prop
  | .fetch _ => True
  | .compare _ stored => stored ∈ k.history
  | .assign _ stored => stored ∈ k.history
  | .readAnchor => True
  | .readPending old => old ∈ k.history
  | .store old => old ∈ k.history
  | .checkCurrent old new => k.Works old new ∧ (old ≠ k.current → new ∈ k.history)
  | .rollback new => new ∈ k.history
  | .reread old => old ∈ k.history
  | .append old new todo =>
    k.Works old new ∧ todo ⊆ tenants ∧ ∀ t ∈ tenants, t ∉ todo → (k.next t old).isSome
  | .activate old new => k.Works old new ∧ ∀ t ∈ tenants, (k.next t old).isSome
  | .checkActivated _ => True
  | .setKey new => new ∈ k.history
  | .clear new => new ∈ k.history
  | .cleanUp old => old ∈ k.history
  | .done _ => True

variable {tenants : List String} {k k' : Keys}

theorem Keys.Evolves.next_isSome (h : k.Evolves k') {t : String} {a : Key}
    (hsome : (k.next t a).isSome) : (k'.next t a).isSome := by
  obtain ⟨q, hq⟩ := Option.isSome_iff_exists.1 hsome
  rw [h.records t a q hq, Option.isSome_some]

theorem Stage.Inv.mono {stage : Stage} (h : stage.Inv tenants k) (hev : k.Evolves k') :
    stage.Inv tenants k' := by
  cases stage with
  | fetch why | readAnchor | checkActivated new | done outcome => trivial
  | compare why stored | assign why stored | readPending old | store old | rollback new
  | reread old | setKey new | clear new | cleanUp old => exact hev.history h
  | checkCurrent old new =>
    refine ⟨h.1.mono hev, fun hne => ?_⟩
    by_cases hold : old = k.current
    · obtain ⟨hsame, _⟩ | ⟨_, hmem⟩ := hev.offered new (h.1.2 hold)
      · exact absurd (hold.trans hsame.symm) hne
      · exact hmem
    · exact hev.history (h.2 hold)
  | append old new todo =>
    exact ⟨h.1.mono hev, h.2.1, fun t ht hnot => hev.next_isSome (h.2.2 t ht hnot)⟩
  | activate old new => exact ⟨h.1.mono hev, fun t ht => hev.next_isSome (h.2 t ht)⟩

theorem Purpose.next_inv (why : Purpose) : why.next.Inv tenants k := by
  cases why with
  | start | giveUp | keepFresh => trivial

theorem Keys.Inv.works_of_pending (h : k.Inv tenants) {old new : Key} (hold : old ∈ k.history)
    (hp : k.pending = some new) (hne : new ≠ old) : k.Works old new := by
  refine ⟨hold, fun hcurrent => ⟨hp, fun hmem => ?_⟩⟩
  exact hne ((h.pending new hp hmem).trans hcurrent.symm)

theorem append_inv {old new : Key} (hworks : k.Works old new) :
    (Stage.append old new tenants).Inv tenants k :=
  ⟨hworks, fun _ h => h, fun _ ht hnot => absurd ht hnot⟩

/-- One operation keeps the stores in order, moves them only as the other calls
may rely on, and leaves the call with what it relies on next. -/
theorem advance_inv (hk : k.Inv tenants) (c : Call) (hc : c.stage.Inv tenants k)
    (hstore : ∀ old, c.stage = .store old → k.pending = none → k.current = old) :
    (advance tenants k c).1.Inv tenants ∧ k.Evolves (advance tenants k c).1 ∧
      (advance tenants k c).2.stage.Inv tenants (advance tenants k c).1 := by
  obtain ⟨replica, stage, res⟩ := c
  fun_cases advance tenants k ⟨replica, stage, res⟩ with
  | case1 | case22 => exact ⟨hk, .refl k, hk.current_mem⟩
  | case2 why => exact ⟨hk, .refl k, why.next_inv⟩
  | case4 why stored hs =>
    cases hs
    exact ⟨hk.setAnchor hc replica, k.evolves_setAnchor _ _, why.next_inv⟩
  | case5 => exact ⟨hk, .refl k, hk.anchors replica⟩
  | case3 _ _ hs | case6 _ hs | case7 _ _ hs =>
    cases hs
    exact ⟨hk, .refl k, hc⟩
  | case8 old hs pending hp hown | case16 old hs pending hp hown =>
    cases hs
    exact ⟨hk, .refl k, append_inv (hk.works_of_pending hc hp hown)⟩
  | case9 old hs hp =>
    cases hs
    have hold : old = k.current := (hstore old rfl hp).symm
    exact ⟨hk.storePending, k.evolves_storePending,
      ⟨hc, fun _ => hk.storePending_offers hp⟩, fun hne => absurd hold hne⟩
  | case10 old hs =>
    cases hs
    exact ⟨hk.storePending, k.evolves_storePending, hc⟩
  | case11 new hs =>
    cases hs
    exact ⟨hk, .refl k, append_inv hc.1⟩
  | case12 old new hs hcurrent =>
    cases hs
    exact ⟨hk, .refl k, hc.2 (Ne.symm hcurrent)⟩
  | case17 old new hs =>
    cases hs
    exact ⟨hk, .refl k, hc.1, fun t ht => hc.2.2 t ht not_mem_nil⟩
  | case19 old new t todo hs k' added happend =>
    cases hs
    have hev := Keys.evolves_appendRotation happend
    refine ⟨hk.appendRotation (hc.2.1 mem_cons_self) hc.1 happend, hev,
      hc.1.mono hev, fun s hs => hc.2.1 (mem_cons_of_mem t hs), ?_⟩
    intro s hs hnot
    by_cases hst : s = t
    · subst hst
      exact Keys.appendRotation_next happend
    · exact hev.next_isSome (hc.2.2 s hs (by simp [hst, hnot]))
  | case20 new hs =>
    cases hs
    have hoffers := hc.1.2 rfl
    refine ⟨hk.activate hoffers hc.2, hk.evolves_activate hoffers, ?_⟩
    exact mem_append_right _ (mem_singleton_self new)
  | case24 new hs =>
    cases hs
    exact ⟨hk.setAnchor hc replica, k.evolves_setAnchor _ _, hc⟩
  | case13 _ hs | case25 _ hs | case26 _ hs =>
    cases hs
    exact ⟨hk.clearPending hc, Keys.evolves_clearPending hc, trivial⟩
  | case14 | case15 | case18 | case21 | case23 => exact ⟨hk, .refl k, trivial⟩
  | case27 _ hs =>
    cases hs
    exact ⟨hk, .refl k, trivial⟩

theorem advance_succeeded {c : Call} (hrunning : c.finished = false)
    (h : (advance tenants k c).2.stage = .done .succeeded) :
    ∃ key, (c.stage = .clear key ∨ c.stage = .cleanUp key) ∧
      (advance tenants k c).1 = k.clearPending key := by
  revert h hrunning
  fun_cases advance tenants k c with
  | case25 new hc => exact fun _ _ => ⟨new, Or.inl hc, rfl⟩
  | case26 old hc => exact fun _ _ => ⟨old, Or.inr hc, rfl⟩
  | case27 outcome hc =>
    intro hrunning
    rw [Call.finished, hc] at hrunning
    cases hrunning
  | case2 why | case4 why =>
    cases why
    all_goals rintro - ⟨⟩
  | _ => rintro - ⟨⟩

theorem advance_idle {c : Call} (hrunning : c.finished = false) (hidle : c.rotating = false) :
    (advance tenants k c).1.pending = k.pending ∧ (advance tenants k c).2.rotating = false ∧
      (advance tenants k c).2.stage ≠ .done .succeeded := by
  obtain ⟨replica, stage, res⟩ := c
  cases stage with
  | fetch why | assign why stored =>
    cases why with
    | keepFresh => exact ⟨rfl, rfl, by intro h; cases h⟩
    | start | giveUp => cases hidle
  | compare why stored =>
    cases why with
    | keepFresh =>
      by_cases hsame : k.anchors replica = stored
      · simp only [advance, hsame, if_true]
        exact ⟨trivial, rfl, by intro h; cases h⟩
      · simp only [advance, hsame, if_false]
        exact ⟨trivial, rfl, by intro h; cases h⟩
    | start | giveUp => cases hidle
  | done outcome => cases hrunning
  | _ => cases hidle

/-- A fresh key goes into an empty slot only while the key its call started from
is current, and a call that returns success with no other rotation running finds
no other key pending. -/
def orderly (h : Hub) : Event → Bool
  | .run i =>
    match h.calls[i]? with
    | some ⟨_, .store old, _⟩ => h.keys.pending.isSome || h.keys.current = old
    | some ⟨_, .clear key, _⟩ =>
      !h.idleBesides i || h.keys.pending = none || h.keys.pending = some key
    | some ⟨_, .cleanUp key, _⟩ =>
      !h.idleBesides i || h.keys.pending = none || h.keys.pending = some key
    | _ => true
  | _ => true

variable {h h' : Hub} {i : Nat} {c : Call}

theorem orderly_store (hok : orderly h (.run i)) (hi : h.calls[i]? = some c) {old : Key}
    (hstage : c.stage = .store old) (hp : h.keys.pending = none) : h.keys.current = old := by
  obtain ⟨replica, stage, res⟩ := c
  cases hstage
  simpa [orderly, hi, hp] using hok

theorem orderly_clear (hok : orderly h (.run i)) (hi : h.calls[i]? = some c) {key : Key}
    (hstage : c.stage = .clear key ∨ c.stage = .cleanUp key) (hidle : h.idleBesides i) :
    h.keys.pending = none ∨ h.keys.pending = some key := by
  obtain ⟨replica, stage, res⟩ := c
  obtain hstage | hstage := hstage
  · cases hstage
    simpa [orderly, hi, hidle] using hok
  · cases hstage
    simpa [orderly, hi, hidle] using hok

structure Hub.Inv (tenants : List String) (h : Hub) : Prop where
  keys : h.keys.Inv tenants
  calls : ∀ c ∈ h.calls, c.stage.Inv tenants h.keys
  settled : h.settled = true → h.keys.pending = none ∧ ∀ c ∈ h.calls, c.rotating = false

theorem Hub.idleBesides_iff : h.idleBesides i ↔ ∀ c ∈ h.calls.eraseIdx i, c.rotating = false := by
  simp [Hub.idleBesides, all_eq_true]

/-- A call besides `i`, or the one that takes its place. -/
theorem mem_set_cases {calls : List Call} {c' d : Call} (hd : d ∈ calls.set i c') :
    d = c' ∨ d ∈ calls.eraseIdx i := by
  obtain ⟨j, hj, rfl⟩ := mem_iff_getElem.1 hd
  by_cases hij : i = j
  · left
    simp only [hij, getElem_set_self]
  · right
    rw [mem_eraseIdx_iff_getElem]
    refine ⟨j, by simpa using hj, Ne.symm hij, ?_⟩
    rw [getElem_set_ne hij]

theorem clearPending_empty {key : Key} (h : k.pending = none ∨ k.pending = some key) :
    (k.clearPending key).pending = none := by
  obtain h | h := h <;> simp [Keys.clearPending, h]

/-- An operation of call `i` keeps the invariant. -/
theorem Hub.Inv.run (hinv : h.Inv tenants) (hok : orderly h (.run i))
    (hi : h.calls[i]? = some c) (hrunning : c.finished = false) :
    Hub.Inv tenants
      { keys := (advance tenants h.keys c).1
        calls := h.calls.set i (advance tenants h.keys c).2
        settled :=
          if (advance tenants h.keys c).2.stage = .done .succeeded then h.idleBesides i
          else h.settled } := by
  have hmem : c ∈ h.calls := mem_of_getElem? hi
  obtain ⟨hkeys, hev, hstage⟩ := advance_inv hinv.keys c (hinv.calls c hmem)
    (fun old hold hp => orderly_store hok hi hold hp)
  refine ⟨hkeys, ?_, ?_⟩
  · exact all_mem_set (fun d hd => (hinv.calls d hd).mono hev) hstage
  · by_cases hdone : (advance tenants h.keys c).2.stage = .done .succeeded
    · simp only [hdone, if_true]
      intro hidle
      obtain ⟨key, hclear, hcleared⟩ := advance_succeeded hrunning hdone
      constructor
      · rw [hcleared]
        exact clearPending_empty (orderly_clear hok hi hclear hidle)
      · intro d hd
        obtain rfl | hd := mem_set_cases hd
        · simp only [Call.rotating, hdone]
        · exact Hub.idleBesides_iff.1 hidle d hd
    · simp only [hdone, if_false]
      intro hsettled
      obtain ⟨hpending, hidle⟩ := hinv.settled hsettled
      obtain ⟨hkept, hnext, _⟩ := advance_idle hrunning (hidle c hmem)
      exact ⟨hkept.trans hpending, all_mem_set hidle hnext⟩

theorem step_inv (hinv : h.Inv tenants) (e : Event) (hok : orderly h e)
    (hstep : step tenants h e = some h') : h'.Inv tenants := by
  revert hstep
  fun_cases step tenants h e with
  | case1 replica =>
    rintro ⟨⟩
    exact ⟨hinv.keys, all_mem_snoc hinv.calls trivial, fun hs => by cases hs⟩
  | case2 replica =>
    rintro ⟨⟩
    exact ⟨hinv.keys, all_mem_snoc hinv.calls trivial,
      fun hs => ⟨(hinv.settled hs).1, all_mem_snoc (hinv.settled hs).2 rfl⟩⟩
  | case5 i c hi hrunning keys c' hadvance =>
    rintro ⟨⟩
    simpa only [hadvance] using hinv.run hok hi (by simpa using hrunning)
  | case8 i c hi hrunning =>
    -- the replica stops in the middle of the call
    rintro ⟨⟩
    exact ⟨hinv.keys, all_mem_set hinv.calls trivial,
      fun hs => ⟨(hinv.settled hs).1, all_mem_set (hinv.settled hs).2 rfl⟩⟩
  | case9 tenantID =>
    rintro ⟨⟩
    exact ⟨hinv.keys.bumpVersion tenantID,
      fun c hc => (hinv.calls c hc).mono (h.keys.evolves_bumpVersion tenantID), hinv.settled⟩
  | _ => rintro ⟨⟩

theorem initial_inv (tenants : List String) : initial.Inv tenants := by
  refine ⟨⟨?_, rfl, ?_, ?_, ?_, ?_, ?_, ?_, ?_⟩, ?_, ?_⟩
  · exact nodup_singleton 0
  · intro t _
    exact isChain_singleton 0
  · intro t a q hq
    cases hq
  · intro t q hq
    cases hq
  · intro q hq
    cases hq
  · intro r
    exact mem_singleton_self 0
  · intro a ha
    obtain ha | ha := ha
    · rw [mem_singleton.1 ha]
      decide
    · cases ha
  · intro r hr
    cases hr
  · intro c hc
    cases hc
  · intro hs
    cases hs

/-- In every orderly run the records lead from every key that has been current to
a key the Hub holds, name only keys that it holds or has held as current, and,
once a rotation has succeeded with no other one running, lead to the current key. -/
theorem followed_of_reaches (tenants : List String) {h : Hub}
    (hrun : Reaches (step tenants) (fun h e => orderly h e = true) initial h) :
    (∀ t ∈ tenants, ∀ a ∈ h.keys.history,
        h.keys.Held (endOf Rotation.newKeyID a (h.keys.chain t a))) ∧
      (∀ r ∈ h.keys.records, r.newKeyID ∈ h.keys.history ∨ h.keys.Held r.newKeyID) ∧
      (h.settled = true → ∀ t ∈ tenants, t ≠ "" → ∀ a ∈ h.keys.history,
        ∃ chain, h.keys.rotationChain t a = some chain ∧
          endOf Rotation.newKeyID a chain = h.keys.current) := by
  have hinv : h.Inv tenants := hrun.invariant (initial_inv tenants)
    fun _ e _ hinv hok hstep => step_inv hinv e hok hstep
  refine ⟨fun t ht a ha => hinv.keys.held_endOf_chain ht ha, ?_, ?_⟩
  · intro r hr
    exact (hinv.keys.named r hr).imp_right Or.inr
  · intro hsettled t ht hne a ha
    refine ⟨_, if_neg hne, hinv.keys.endOf_chain_current ht ha ?_⟩
    apply Option.eq_none_iff_forall_ne_some.2
    intro q hq
    have hoffer := (hinv.keys.ahead t q hq).1
    rw [(hinv.settled hsettled).1] at hoffer
    cases hoffer

/-- A whole rotation, and a second one that stops after its first record and is
resumed from another replica. -/
def twoRotations : List Event :=
  [Event.rotate 0] ++ replicate 12 (Event.run 0) ++ [Event.rotate 1] ++ replicate 8 (Event.run 1) ++
    [Event.stop 1, Event.rotate 0] ++ replicate 10 (Event.run 2)

/-- After the two rotations the first key leads to the third one. -/
theorem followed_of_twoRotations :
    ∃ h, Reaches (step ["a", "b"]) (fun h e => orderly h e = true) initial h ∧
      h.settled = true ∧ h.keys.current = 2 ∧ ∃ chain,
        h.keys.rotationChain "b" 0 = some chain ∧ endOf Rotation.newKeyID 0 chain = 2 := by
  obtain ⟨h, hrun, ⟨hsettled, hcurrent, hhistory⟩, hfollowed⟩ := exists_reaches_and_of_decide
    (P := fun h => h.settled ∧ h.keys.current = 2 ∧ h.keys.history = [0, 1, 2]) twoRotations
    (by decide +kernel) fun _ hrun => (followed_of_reaches ["a", "b"] hrun).2.2
  have hchain := hfollowed hsettled "b" (by simp) (by decide) 0 (by simp [hhistory])
  exact ⟨h, hrun, hsettled, hcurrent, hcurrent ▸ hchain⟩

/-- A call on replica 0 reads the current key and finds nothing pending; another
one then rotates away from that key; the first one stores its fresh key all the
same; a third call, on the new current key, takes that key for its own rotation
and writes a record to it; the first one takes its key back. -/
def outdatedPending : List Event :=
  [Event.rotate 0] ++ replicate 4 (Event.run 0) ++ [Event.rotate 1] ++ replicate 12 (Event.run 1) ++
    [Event.run 0, Event.rotate 2] ++ replicate 6 (Event.run 2) ++ replicate 2 (Event.run 0)

/-- A record is left that names a key the Hub neither holds nor ever made
current, and the current key itself leads there. -/
theorem dropped_key_recorded : ∃ h, Reaches (step ["a", "b"]) (fun _ _ => True) initial h ∧
      (∃ r ∈ h.keys.records, r.newKeyID ∉ h.keys.history ∧ ¬h.keys.Held r.newKeyID) ∧
      ∃ a ∈ h.keys.history, ¬h.keys.Held (endOf Rotation.newKeyID a (h.keys.chain "a" a)) := by
  exact exists_reaches_of_decide outdatedPending (by decide +kernel)

end MeshsatHub.Directory
