import MeshsatHub.Egress.Births

/-!
# The newest word on a modem

Every replica's own word on a modem is the newest of what it holds and what is stored.
-/

namespace MeshsatHub.Egress
open Newest Runs List Function Option
variable {declares : Int → Option Format} {s : Store}

theorem mergeEntry_newest (ts us : List Int) :
    mergeEntry (newest declares ts) (newest declares us) = newest declares (ts ++ us) := by
  rw [newest_append]
  cases ht : newest declares ts with
  | none => cases newest declares us <;> rfl
  | some a =>
    cases hu : newest declares us with
    | none => rfl
    | some b =>
      rw [← later_eq_of_le ht hu]
      simp [mergeEntry, supersedes]

theorem birth_entry (t : Int) : Birth.entry ⟨t, declares t⟩ = newest declares [t] := by
  rw [newest_singleton]
  rfl

structure Held.WellFormed (declares : Int → Option Format) (h : Held) : Prop where
  entry : h.entry = newest declares h.births
  record : h.record ≠ none → h.entry ≠ none
  row_mem : h.row.stamp ∈ h.births
  row_declares : h.row.declares = declares h.row.stamp

theorem hold_births (version : Nat) (b : Birth) (held : Option Held) :
    (hold version b held).births = (held.elim [] Held.births) ++ [b.stamp] := by
  cases held <;> rfl

theorem hold_wellFormed (version : Nat) (t : Int) {held : Option Held}
    (h : ∀ g, held = some g → g.WellFormed declares) :
    (hold version ⟨t, declares t⟩ held).WellFormed declares := by
  cases held with
  | none =>
    refine ⟨birth_entry t, ?_, by simp [hold], rfl⟩
    intro hrecord
    simpa [hold, Birth.entry] using hrecord
  | some g =>
    have hg := h g rfl
    refine ⟨?_, ?_, ?_, ?_⟩
    · simp only [hold, hg.entry, birth_entry, mergeEntry_newest]
    · intro hrecord
      simp only [hold, mergeEntry] at hrecord ⊢
      split
      · next hsup =>
        intro hnone
        rw [hnone] at hsup
        exact absurd hsup (by simp [supersedes])
      · next hsup =>
        rw [if_neg hsup] at hrecord
        exact hg.record hrecord
    · simp only [hold]
      split
      · simp
      · exact mem_append_left _ hg.row_mem
    · simp only [hold]
      split
      · rfl
      · exact hg.row_declares

structure Store.WellFormed (declares : Int → Option Format) (s : Store) : Prop where
  entry : s.entry = newest declares s.stored
  record : s.record ≠ none → s.entry ≠ none
  row : ∀ b, s.row = some b → b.stamp ∈ s.stored ∧ b.declares = declares b.stamp

/-- What is stored stays, and a declared modem stays declared. -/
structure Store.Grows (s t : Store) : Prop where
  stored : s.stored ⊆ t.stored
  entry : s.entry ≠ none → t.entry ≠ none

theorem newest_ne_none_mono {ts us : List Int} (h : ts ⊆ us)
    (hts : newest declares ts ≠ none) : newest declares us ≠ none := by
  obtain ⟨a, ha⟩ := ne_none_iff_exists'.1 hts
  obtain ⟨hmem, htells⟩ := newest_tells ha
  obtain ⟨b, hb, _⟩ := newest_bound (h hmem) htells
  rw [hb]
  simp

theorem Store.createOrUpdateBridge_wellFormed {snap : Held} (hs : s.WellFormed declares)
    (hsnap : snap.WellFormed declares) :
    (s.createOrUpdateBridge snap).WellFormed declares ∧ s.Grows (s.createOrUpdateBridge snap) := by
  have hentry : (s.createOrUpdateBridge snap).entry =
      newest declares (s.stored ++ snap.births) := by
    simp only [Store.createOrUpdateBridge, hs.entry, hsnap.entry, mergeEntry_newest]
  have hgrows : s.entry ≠ none → (s.createOrUpdateBridge snap).entry ≠ none := by
    rw [hentry, hs.entry]
    exact newest_ne_none_mono (subset_append_left _ _)
  refine ⟨⟨hentry, fun hrecord => hgrows (hs.record hrecord), ?_⟩, subset_append_left _ _, hgrows⟩
  intro b hb
  have hsnapRow : snap.row.stamp ∈ s.stored ++ snap.births ∧
      snap.row.declares = declares snap.row.stamp :=
    ⟨mem_append_right _ hsnap.row_mem, hsnap.row_declares⟩
  simp only [Store.createOrUpdateBridge] at hb ⊢
  split at hb
  · cases hb
    exact hsnapRow
  · next row hrow =>
    split at hb
    · cases hb
      exact hsnapRow
    · cases hb
      exact ⟨mem_append_left _ (hs.row _ hrow).1, (hs.row _ hrow).2⟩

theorem Store.setDeviceEgress_wellFormed (hs : s.WellFormed declares)
    (hentry : s.entry ≠ none) (format : Format) :
    (s.setDeviceEgress format).WellFormed declares ∧ s.Grows (s.setDeviceEgress format) :=
  ⟨⟨hs.entry, fun _ => hentry, hs.row⟩, Subset.refl _, id⟩

structure Replica.Inv (declares : Int → Option Format) (store : Store) (r : Replica) : Prop where
  held : ∀ h, r.held = some h → h.WellFormed declares
  held_taken : ∀ h, r.held = some h → h.births ⊆ r.taken
  held_written : ∀ h, r.held = some h → h.written = true → h.births ⊆ store.stored
  held_version : ∀ h, r.held = some h → h.version ≤ r.version
  taken : ∀ t ∈ r.taken, t ∈ store.stored ∨ ∃ h, r.held = some h ∧ t ∈ h.births
  confirmed : r.confirmed ≠ none → store.entry ≠ none

structure Writer.Inv (declares : Int → Option Format) (store : Store) (r : Replica)
    (wr : Writer) : Prop where
  snap : wr.snap.WellFormed declares
  version : wr.snap.version ≤ r.version
  same : ∀ h, r.held = some h → h.version = wr.snap.version → h.births = wr.snap.births
  stored : wr.stage ≠ .create → wr.snap.births ⊆ store.stored
  record : ∀ format, wr.stage = .record format → wr.snap.record = some format

/-- What every operation of the replicas and their writers keeps. -/
structure Core.Inv (declares : Int → Option Format) (c : Core) : Prop where
  store : c.store.WellFormed declares
  replica : ∀ r, (c.replicas r).Inv declares c.store
  writer : ∀ w wr, c.writers w = some wr → wr.Inv declares c.store (c.replicas wr.replica)

variable {r : Replica} {wr : Writer} {store t : Store} {w : Nat}

theorem Replica.Inv.mono (h : r.Inv declares s) (hg : s.Grows t) : r.Inv declares t where
  held := h.held
  held_taken := h.held_taken
  held_written := fun g hg' hw => Subset.trans (h.held_written g hg' hw) hg.stored
  held_version := h.held_version
  taken := fun x hx => (h.taken x hx).imp (fun hs => hg.stored hs) id
  confirmed := fun hc => hg.entry (h.confirmed hc)

theorem Writer.Inv.mono (h : wr.Inv declares s r) (hg : s.Grows t) : wr.Inv declares t r :=
  { h with stored := fun hstage => Subset.trans (h.stored hstage) hg.stored }

variable {c : Core}

section
variable (h : c.Inv declares)
include h

theorem Core.Inv.setStore (hstore : store.WellFormed declares ∧ c.store.Grows store) :
    Core.Inv declares { c with store := store } where
  store := hstore.1
  replica := fun r => (h.replica r).mono hstore.2
  writer := fun w wr hw => (h.writer w wr hw).mono hstore.2

theorem Core.Inv.setReplica {r : Nat} {replica : Replica} (hreplica : replica.Inv declares c.store)
    (hwriter : ∀ w wr, c.writers w = some wr → wr.replica = r →
      wr.Inv declares c.store replica) : (c.setReplica r replica).Inv declares where
  store := h.store
  replica := by
    intro n
    simp only [Core.setReplica]
    by_cases hn : n = r
    · rw [hn, update_self]
      exact hreplica
    · rw [update_of_ne hn]
      exact h.replica n
  writer := by
    intro w wr hw
    simp only [Core.setReplica] at hw ⊢
    by_cases hn : wr.replica = r
    · rw [hn, update_self]
      exact hwriter w wr hw hn
    · rw [update_of_ne hn]
      exact h.writer w wr hw

theorem Core.Inv.setWriter {writer : Option Writer}
    (hwriter : ∀ wr, writer = some wr → wr.Inv declares c.store (c.replicas wr.replica)) :
    (c.setWriter w writer).Inv declares where
  store := h.store
  replica := h.replica
  writer := by
    intro n wr hn
    simp only [Core.setWriter] at hn
    by_cases hw : n = w
    · rw [hw, update_self] at hn
      exact hwriter wr hn
    · rw [update_of_ne hw] at hn
      exact h.writer n wr hn

theorem Core.Inv.take (r : Nat) (t : Int) : (c.take r ⟨t, declares t⟩).Inv declares := by
  have hr := h.replica r
  apply h.setReplica
  · constructor
    · intro g hg
      cases hg
      exact hold_wellFormed _ t hr.held
    · intro g hg
      cases hg
      rw [hold_births]
      apply append_subset.2
      refine ⟨?_, subset_append_right _ _⟩
      cases hheld : (c.replicas r).held with
      | none => simp
      | some k => exact Subset.trans (hr.held_taken k hheld) (subset_append_left _ _)
    · intro g hg hwritten
      cases hg
      cases hheld : (c.replicas r).held <;> simp [hheld, hold] at hwritten
    · intro g hg
      cases hg
      cases hheld : (c.replicas r).held <;> simp [hold]
    · intro x hx
      obtain hx | hx := mem_append.1 hx
      · obtain hs | ⟨k, hk, hmem⟩ := hr.taken x hx
        · exact Or.inl hs
        · refine Or.inr ⟨_, rfl, ?_⟩
          rw [hold_births, hk]
          exact mem_append_left _ hmem
      · refine Or.inr ⟨_, rfl, ?_⟩
        rw [hold_births]
        exact mem_append_right _ hx
    · exact hr.confirmed
  · intro w wr hw hwr
    have hinv := h.writer w wr hw
    rw [hwr] at hinv
    refine { hinv with version := Nat.le_succ_of_le hinv.version, same := ?_ }
    intro g hg hversion
    cases hg
    have hnew : (hold ((c.replicas r).version + 1) ⟨t, declares t⟩ (c.replicas r).held).version =
        (c.replicas r).version + 1 := by
      cases (c.replicas r).held <;> rfl
    have := hinv.version
    omega

end

structure Held.Refines (h g : Held) : Prop where
  births : g.births = h.births
  entry : g.entry = h.entry
  row : g.row = h.row
  version : g.version = h.version
  record : g.record ≠ none → h.record ≠ none

theorem release_eq_some {h g : Held} (hg : release h = some g) : g = h := by
  unfold release at hg
  split at hg
  · exact absurd hg (by simp)
  · exact (some.inj hg).symm

theorem Replica.Inv.release {h g : Held} (hr : r.Inv declares store) (hheld : r.held = some h)
    (hg : h.Refines g) (hwritten : g.written → g.births ⊆ store.stored) :
    Replica.Inv declares store { r with held := Egress.release g } where
  held := by
    intro k hk
    obtain rfl := release_eq_some hk
    have hwf := hr.held h hheld
    refine ⟨?_, ?_, ?_, ?_⟩
    · rw [hg.entry, hg.births, hwf.entry]
    · intro hrecord
      rw [hg.entry]
      exact hwf.record (hg.record hrecord)
    · rw [hg.row, hg.births]
      exact hwf.row_mem
    · rw [hg.row]
      exact hwf.row_declares
  held_taken := by
    intro k hk
    obtain rfl := release_eq_some hk
    rw [hg.births]
    exact hr.held_taken h hheld
  held_written := by
    intro k hk
    obtain rfl := release_eq_some hk
    exact hwritten
  held_version := by
    intro k hk
    obtain rfl := release_eq_some hk
    rw [hg.version]
    exact hr.held_version h hheld
  taken := by
    intro t ht
    obtain hs | ⟨k, hk, hmem⟩ := hr.taken t ht
    · exact Or.inl hs
    · cases hheld.symm.trans hk
      rw [← hg.births] at hmem
      unfold Egress.release
      split
      · next hdone => exact Or.inl (hwritten hdone.1 hmem)
      · exact Or.inr ⟨g, rfl, hmem⟩
  confirmed := hr.confirmed

theorem Writer.Inv.release {h g : Held} (hw : wr.Inv declares store r) (hheld : r.held = some h)
    (hg : h.Refines g) : wr.Inv declares store { r with held := Egress.release g } := by
  refine { hw with same := ?_ }
  intro k hk hversion
  obtain rfl := release_eq_some hk
  rw [hg.births]
  exact hw.same h hheld (hg.version ▸ hversion)

theorem Core.Inv.mark (h : c.Inv declares) {r : Nat} {held marked : Held}
    (hheld : (c.replicas r).held = some held) (hmarked : held.Refines marked)
    (hwritten : marked.written → marked.births ⊆ c.store.stored) :
    (c.setReplica r { c.replicas r with held := release marked }).Inv declares := by
  apply h.setReplica ((h.replica r).release hheld hmarked hwritten)
  intro w wr hw hwr
  have hinv := h.writer w wr hw
  rw [hwr] at hinv
  exact hinv.release hheld hmarked

theorem Core.setReplica_self (c : Core) (r : Nat) : c.setReplica r (c.replicas r) = c := by
  simp [Core.setReplica]

section
variable (h : c.Inv declares)
include h

theorem Core.Inv.markWritten (hw : c.writers w = some wr) (hstage : wr.stage ≠ .create) :
    (c.setReplica wr.replica
      ((c.replicas wr.replica).markWritten wr.snap.version)).Inv declares := by
  have hwriter := h.writer w wr hw
  unfold Replica.markWritten
  split
  · next held hheld =>
    split
    · next hversion =>
      have hmarked : held.Refines { held with written := true } := ⟨rfl, rfl, rfl, rfl, id⟩
      apply h.mark hheld hmarked
      intro _
      exact hwriter.same held hheld hversion ▸ hwriter.stored hstage
    · rw [Core.setReplica_self]
      exact h
  · rw [Core.setReplica_self]
    exact h

theorem Core.Inv.markRecorded : (c.setReplica wr.replica
      ((c.replicas wr.replica).markRecorded wr.snap.version)).Inv declares := by
  unfold Replica.markRecorded
  split
  · next held hheld =>
    split
    · have hmarked : held.Refines { held with record := none } :=
        ⟨rfl, rfl, rfl, rfl, fun hne => absurd rfl hne⟩
      apply h.mark hheld hmarked
      exact (h.replica wr.replica).held_written held hheld
    · rw [Core.setReplica_self]
      exact h
  · rw [Core.setReplica_self]
    exact h

theorem Core.Inv.startWrite {r : Nat} {c' : Core} (hstart : c.startWrite r w = some c') :
    c'.Inv declares := by
  unfold Core.startWrite at hstart
  split at hstart
  · next held _ hheld =>
    have hr := h.replica r
    have hsnap (stage : WriteStage) (hstored : stage ≠ .create → held.births ⊆ c.store.stored)
        (hrecord : ∀ format, stage = .record format → held.record = some format) :
        (c.setWriter w (some ⟨r, held, stage⟩)).Inv declares := by
      apply h.setWriter
      intro wr hwr
      cases hwr
      refine ⟨hr.held held hheld, hr.held_version held hheld, ?_, hstored, hrecord⟩
      intro g hg _
      rw [some.inj (hheld.symm.trans hg)]
    split at hstart
    · next hwritten =>
      obtain ⟨stage, hstage, rfl⟩ := map_eq_some_iff.1 hstart
      obtain ⟨format, hformat, rfl⟩ := map_eq_some_iff.1 hstage
      apply hsnap
      · intro _
        exact hr.held_written held hheld hwritten
      · intro f hf
        rw [hformat, WriteStage.record.inj hf]
    · cases hstart
      exact hsnap .create (fun hne => absurd rfl hne) (fun _ hf => absurd hf (by simp))
  · exact absurd hstart (by simp)

theorem Core.Inv.write (hw : c.writers w = some wr) (outcome : Outcome) (again : Bool) :
    (c.write w wr outcome again).Inv declares := by
  have hwriter := h.writer w wr hw
  have hfailed : ∀ wr', (if again then some wr else none) = some wr' → wr' = wr := by
    intro wr' hwr'
    split at hwr'
    · exact (some.inj hwr').symm
    · exact absurd hwr' (by simp)
  unfold Core.write
  cases hstage : wr.stage with
  | create =>
    have hcreate := Store.createOrUpdateBridge_wellFormed h.store hwriter.snap
    have hc := h.setStore hcreate
    cases outcome with
    | done =>
      apply hc.setWriter
      intro wr' hwr'
      cases hwr'
      refine { hwriter.mono hcreate.2 with stored := ?_, record := ?_ }
      · intro _
        exact subset_append_right _ _
      · intro format hformat
        exact absurd hformat (by simp)
    | lost =>
      apply h.setWriter
      intro wr' hwr'
      rw [hfailed wr' hwr']
      exact hwriter
    | unseen =>
      apply hc.setWriter
      intro wr' hwr'
      rw [hfailed wr' hwr']
      exact hwriter.mono hcreate.2
  | markWritten =>
    have hstored : wr.stage ≠ .create := by simp [hstage]
    have hc := h.markWritten hw hstored
    apply hc.setWriter
    intro wr' hwr'
    obtain ⟨stage, hrecord, rfl⟩ := map_eq_some_iff.1 hwr'
    obtain ⟨format, hformat, rfl⟩ := map_eq_some_iff.1 hrecord
    refine { hc.writer w wr hw with stored := fun _ => hwriter.stored hstored, record := ?_ }
    intro f hf
    rw [hformat, WriteStage.record.inj hf]
  | record format =>
    have hstored : wr.snap.births ⊆ c.store.stored := hwriter.stored (by simp [hstage])
    have hentry : c.store.entry ≠ none := by
      have hsnap : wr.snap.entry ≠ none :=
        hwriter.snap.record (by simp [hwriter.record format hstage])
      rw [hwriter.snap.entry] at hsnap
      rw [h.store.entry]
      exact newest_ne_none_mono hstored hsnap
    have hset := Store.setDeviceEgress_wellFormed h.store hentry format
    have hc := h.setStore hset
    cases outcome with
    | done =>
      apply hc.setWriter
      intro wr' hwr'
      cases hwr'
      refine { hwriter.mono hset.2 with stored := fun _ => hstored, record := ?_ }
      intro f hf
      exact absurd hf (by simp)
    | lost => exact h.setWriter fun wr' hwr' => absurd hwr' (by simp)
    | unseen => exact hc.setWriter fun wr' hwr' => absurd hwr' (by simp)
  | markRecorded => exact h.markRecorded.setWriter fun wr' hwr' => absurd hwr' (by simp)

theorem Core.Inv.confirm (r : Nat) {confirmed : Option Format}
    (hconfirmed : confirmed ≠ none → c.store.entry ≠ none) :
    (c.confirm r confirmed).Inv declares := by
  have hr := h.replica r
  apply h.setReplica
  · exact ⟨hr.held, hr.held_taken, hr.held_written, hr.held_version, hr.taken, hconfirmed⟩
  · intro w wr hw hwr
    have hinv := h.writer w wr hw
    rw [hwr] at hinv
    exact ⟨hinv.snap, hinv.version, hinv.same, hinv.stored, hinv.record⟩

end

theorem initial_core_inv : initial.core.Inv declares where
  store := ⟨rfl, by simp [initial], by simp [initial]⟩
  replica := fun _ => ⟨by simp [initial], by simp [initial], by simp [initial],
    by simp [initial], by simp [initial], by simp [initial]⟩
  writer := by simp [initial]

end MeshsatHub.Egress
