import MeshsatHub.Egress.Words
import MeshsatHub.Foundations.Tables

/-!
# A sealed modem and its readers

A call of `Declaration` reads what its replica holds and what is stored at
different moments: `answered_of_reaches` says what its answer is worth when no
plain birth that is already outdated on the replica is stored meanwhile.
-/

namespace MeshsatHub.Egress
open Newest Runs Tables Function Option Bool
variable {declares : Int → Option Format} {c : Core} {format : Format}

theorem newest_visible (h : c.Inv declares) (r : Nat) :
    newest declares (c.visible r) = later ((c.replicas r).held.bind Held.entry) c.store.entry := by
  have hr := h.replica r
  have hcongr : newest declares (c.visible r) = newest declares
      (((c.replicas r).held.elim [] Held.births) ++ c.store.stored) := by
    apply newest_congr
    intro t
    simp only [Core.visible, List.mem_append]
    constructor
    · rintro (ht | ht)
      · obtain hs | ⟨g, hg, hmem⟩ := hr.taken t ht
        · exact Or.inr hs
        · rw [hg]
          exact Or.inl hmem
      · exact Or.inr ht
    · rintro (ht | ht)
      · cases hheld : (c.replicas r).held with
        | none => simp [hheld] at ht
        | some g =>
          rw [hheld] at ht
          exact Or.inl (hr.held_taken g hheld ht)
      · exact Or.inr ht
  rw [hcongr, newest_append, ← h.store.entry]
  cases hheld : (c.replicas r).held with
  | none => rfl
  | some g => rw [bind_some, (hr.held g hheld).entry, elim_some]

/-- What a stage of a reader may rely on while the newest word has been sealed
all along. -/
def Reader.Sealed (store : Store) (rd : Reader) : Prop :=
  match rd.stage with
  | .owner => (later rd.held store.entry).map Word.value = some .sealed
  | .heldEntry d => rd.held = some d ∧ (later rd.held store.entry).map Word.value = some .sealed
  | .entry => rd.held = none ∧ (later rd.held store.entry).map Word.value = some .sealed
  | .record => False
  | .birth => False
  | .answered answer => answer = .declaredSealed ∨ answer = .unavailable

/-- What a stage of a reader may rely on while nothing has been held, written or
failed. -/
def Reader.Quiet (store : Store) (seen : Option Decl) (rd : Reader) : Prop :=
  match rd.stage with
  | .owner => rd.held = none
  | .heldEntry _ => False
  | .entry => True
  | .record => store.entry = none
  | .birth => store.entry = none
  | .answered answer => answer = asDeclaration (seen.map Word.value)

theorem unavailable_safe (confirmed : Option Format) :
    unavailable confirmed = .declaredSealed ∨ unavailable confirmed = .unavailable := by
  unfold unavailable
  split
  · exact Or.inl rfl
  · exact Or.inr rfl

theorem asDeclaration_sealed (h : some format = some Format.sealed) :
    asDeclaration (some format) = .declaredSealed := by
  rw [h]
  rfl

variable {rd : Reader} {store : Store} {seen : Option Decl} {confirmed : Option Format}

theorem Reader.Sealed.lookup (h : rd.Sealed store) (confirmed : Option Format) (ok : Bool) :
    Reader.Sealed store
      { rd with stage := (Egress.lookup store confirmed rd.held ok rd.stage).1 } := by
  have hsafe := unavailable_safe confirmed
  obtain ⟨replica, held, stage, sealedSoFar, quiet, seen⟩ := rd
  fun_cases Egress.lookup store confirmed held ok stage with
  | case1 | case2 => exact ⟨rfl, h⟩
  | case3 | case8 =>
    -- the read fails and the word held is sealed
    exact Or.inl rfl
  | case4 | case9 | case12 => exact hsafe
  | case5 | case6 | case7 | case10 =>
    -- the entry is read: the later of it and the word held is sealed
    obtain ⟨rfl, h⟩ := h
    simp only [later, *] at h
    exact Or.inl (asDeclaration_sealed (by simpa using h))
  | case11 =>
    obtain ⟨rfl, h⟩ := h
    simp [later, *] at h
  | case19 => exact h
  | _ => exact h.elim

theorem Store.WellFormed.entry_of_row (h : store.WellFormed declares)
    (hrow : store.row.bind Birth.declares = some format) : store.entry ≠ none := by
  obtain ⟨b, hb, hdeclares⟩ := bind_eq_some_iff.1 hrow
  obtain ⟨hmem, htells⟩ := h.row b hb
  obtain ⟨a, ha, _⟩ := newest_bound hmem (htells.symm.trans hdeclares)
  rw [h.entry, ha]
  simp

theorem Reader.Quiet.lookup (hc : c.Inv declares) (h : rd.Quiet c.store seen)
    (hrunning : rd.running) (hheld : (c.replicas rd.replica).held = none) :
    Reader.Quiet c.store (newest declares (c.visible rd.replica))
      { rd with stage := (Egress.lookup c.store (c.replicas rd.replica).confirmed rd.held true
          rd.stage).1 } := by
  have hnewest : newest declares (c.visible rd.replica) = c.store.entry := by
    rw [newest_visible hc, hheld]
    rfl
  have hconfirmed := (hc.replica rd.replica).confirmed
  rw [hnewest]
  obtain ⟨replica, held, stage, sealedSoFar, quiet, seen'⟩ := rd
  cases stage with
  | owner =>
    obtain rfl : held = none := h
    exact trivial
  | heldEntry d => exact h.elim
  | entry =>
    simp only [Egress.lookup, if_true]
    cases hentry : c.store.entry with
    | none => exact hentry
    | some e => exact rfl
  | record =>
    have hentry : c.store.entry = none := h
    have hrecord : c.store.record = none := by
      by_contra hne
      exact hc.store.record hne hentry
    simp only [Egress.lookup, if_true, hrecord]
    exact hentry
  | birth =>
    have hentry : c.store.entry = none := h
    have hrow : c.store.row.bind Birth.declares = none := by
      cases hrow : c.store.row.bind Birth.declares with
      | none => rfl
      | some format => exact absurd hentry (hc.store.entry_of_row hrow)
    have hnone : (c.replicas replica).confirmed = none := by
      by_contra hne
      exact hconfirmed hne hentry
    simp only [Egress.lookup, if_true, hrow, hnone, hentry]
    exact rfl
  | answered answer => exact absurd hrunning (by simp [Reader.running])

theorem lookup_confirmed (hstore : store.WellFormed declares)
    (hconfirmed : confirmed ≠ none → store.entry ≠ none) (held : Option Decl) (ok : Bool)
    (stage : ReadStage) :
    (Egress.lookup store confirmed held ok stage).2 ≠ none → store.entry ≠ none := by
  fun_cases Egress.lookup store confirmed held ok stage with
  | case5 | case6 | case10 =>
    -- the entry that was read is confirmed
    simp [*]
  | case13 _ _ _ hrecord => exact fun _ => hstore.record (by simp [hrecord])
  | case16 _ _ _ hrow => exact fun _ => hstore.entry_of_row hrow
  | _ => exact hconfirmed

theorem Core.write_store (c : Core) (w : Nat) (wr : Writer) (outcome : Outcome) (again : Bool) :
    (c.write w wr outcome again).store.entry = c.store.entry ∧
        (c.write w wr outcome again).store.stored = c.store.stored ∨
      (wr.stage = .create ∧ outcome ≠ .lost) ∧
        (c.write w wr outcome again).store = c.store.createOrUpdateBridge wr.snap := by
  unfold Core.write
  cases hstage : wr.stage with
  | create =>
    cases outcome with
    | done | unseen => exact Or.inr ⟨⟨rfl, by simp⟩, rfl⟩
    | lost => exact Or.inl ⟨rfl, rfl⟩
  | markWritten | markRecorded => exact Or.inl ⟨rfl, rfl⟩
  | record format => cases outcome <;> exact Or.inl ⟨rfl, rfl⟩

theorem Core.write_taken (c : Core) (w : Nat) (wr : Writer) (outcome : Outcome) (again : Bool)
    (r : Nat) : ((c.write w wr outcome again).replicas r).taken = (c.replicas r).taken := by
  have hmark (version : Nat) (n : Nat) :
      ((c.replicas n).markWritten version).taken = (c.replicas n).taken := by
    unfold Replica.markWritten
    split
    · split <;> rfl
    · rfl
  have hrecorded (version : Nat) (n : Nat) :
      ((c.replicas n).markRecorded version).taken = (c.replicas n).taken := by
    unfold Replica.markRecorded
    split
    · split <;> rfl
    · rfl
  have hset (n : Nat) (replica : Replica) (htaken : replica.taken = (c.replicas n).taken) :
      ((c.setReplica n replica).replicas r).taken = (c.replicas r).taken := by
    simp only [Core.setReplica]
    by_cases hr : r = n
    · rw [hr, update_self, htaken]
    · rw [update_of_ne hr]
  unfold Core.write
  cases wr.stage with
  | create | record format => cases outcome <;> rfl
  | markWritten => exact hset wr.replica _ (hmark _ _)
  | markRecorded => exact hset wr.replica _ (hrecorded _ _)

theorem Reader.Sealed.of_entry_eq {s t : Store} (h : rd.Sealed s) (hentry : t.entry = s.entry) :
    rd.Sealed t := by
  unfold Reader.Sealed at h ⊢
  rw [hentry]
  exact h

theorem Reader.Quiet.of_running {s t : Store} {seen' : Option Decl} (h : rd.Quiet s seen)
    (hrunning : rd.running) (hentry : t.entry = s.entry) : rd.Quiet t seen' := by
  obtain ⟨replica, held, stage, sealedSoFar, quiet, seen⟩ := rd
  cases stage with
  | owner | heldEntry d => exact h
  | entry => trivial
  | record | birth => exact hentry.trans h
  | answered answer => exact absurd hrunning (by simp [Reader.running])

theorem later_sealed {held entry : Option Decl} {p : Int}
    (h : (later held entry).map Word.value = some Format.sealed) :
    (later held (later entry (some ⟨.sealed, p⟩))).map Word.value = some Format.sealed := by
  cases held with
  | none =>
    cases entry with
    | none => rfl
    | some e =>
      rw [later_some_some]
      split
      · rfl
      · exact h
  | some d =>
    cases entry with
    | none =>
      rw [later_none_left, later_some_some]
      split
      · rfl
      · exact h
    | some e =>
      by_cases hep : e.stamp < p
      · rw [later_some_some e, if_pos hep, later_some_some]
        by_cases hdp : d.stamp < p
        · rw [if_pos hdp]
          rfl
        · have hde : ¬ d.stamp < e.stamp := by omega
          rw [later_some_some, if_neg hde] at h
          rw [if_neg hdp]
          exact h
      · rw [later_some_some e, if_neg hep]
        exact h

theorem Reader.Sealed.createOrUpdateBridge (hc : c.Inv declares) {snap : Held}
    (hsnap : snap.WellFormed declares) (h : rd.Sealed c.store)
    (hnewest : (newest declares (c.visible rd.replica ++ snap.births)).map Word.value =
      some .sealed) (hplain : ∀ p, snap.entry = some ⟨.plain, p⟩ →
      ∀ d, newest declares (c.visible rd.replica) = some d → d.stamp ≤ p) :
    rd.Sealed (c.store.createOrUpdateBridge snap) := by
  have hmerge : (c.store.createOrUpdateBridge snap).entry = later c.store.entry snap.entry := by
    simp only [Store.createOrUpdateBridge, hc.store.entry, hsnap.entry, mergeEntry_newest,
      newest_append]
  have hlater : (later rd.held c.store.entry).map Word.value = some .sealed →
      (later rd.held (later c.store.entry snap.entry)).map Word.value = some .sealed := by
    intro hsealed
    cases hentry : snap.entry with
    | none => cases hstore : c.store.entry <;> simpa [later, hstore] using hsealed
    | some w =>
      obtain ⟨format, p⟩ := w
      cases format with
      | sealed => exact later_sealed hsealed
      | plain =>
        rw [newest_append, ← hsnap.entry, hentry] at hnewest
        cases hd : newest declares (c.visible rd.replica) with rw [hd] at hnewest
        | none => exact absurd hnewest (by simp [later])
        | some d =>
          simp only [later] at hnewest
          split at hnewest
          · exact absurd hnewest (by simp)
          · next hlt =>
            have hstamp : d.stamp = p := le_antisymm (hplain p hentry d hd) (not_lt.1 hlt)
            have hdtells := (newest_tells hd).2
            have hptells := (newest_tells (hsnap.entry ▸ hentry)).2
            rw [hstamp, hptells, some.injEq] at hdtells
            rw [map_some, ← hdtells] at hnewest
            exact absurd hnewest (by simp)
  rw [← hmerge] at hlater
  obtain ⟨replica, held, stage, sealedSoFar, quiet, seen⟩ := rd
  cases stage with
  | owner => exact hlater h
  | heldEntry d | entry => exact ⟨h.1, hlater h.2⟩
  | record | birth | answered answer => exact h

def System.commits (s : System) : Event → Option Held
  | .write w outcome _ =>
    (s.core.writers w).bind fun wr =>
      if wr.stage = .create ∧ outcome ≠ .lost then some wr.snap else none
  | _ => none

/-- No plain birth is stored that is already outdated on a replica while a
`Declaration` is under way there. -/
def NoOutdatedPlain (declares : Int → Option Format) (s : System) (e : Event) : Prop :=
  ∀ snap p, s.commits e = some snap → snap.entry = some ⟨.plain, p⟩ →
    ∀ q rd, s.readers q = some rd → rd.running = true →
      ∀ d, newest declares (s.core.visible rd.replica) = some d → d.stamp ≤ p

structure System.Inv (declares : Int → Option Format) (s : System) : Prop where
  core : s.core.Inv declares
  sealedReaders : ∀ q rd, s.readers q = some rd → rd.sealedSoFar = true →
    rd.Sealed s.core.store
  quietReaders : ∀ q rd, s.readers q = some rd → rd.quiet = true →
    rd.Quiet s.core.store rd.seen

variable {s t : System} {core : Core}

theorem System.open_of_running {q : Nat} (hrd : s.readers q = some rd) : s.open q = rd.running := by
  simp [System.open, hrd]

theorem System.Inv.advance (hs : s.Inv declares) (hcore : core.Inv declares)
    {readers : Nat → Option Reader} (hclosed : ∀ q, s.open q = false → readers q = s.readers q)
    (hsealed : ∀ q rd, s.open q → readers q = some rd → rd.sealedSoFar →
      (newest declares (core.visible rd.replica)).map Word.value = some .sealed →
      rd.Sealed core.store) (hquiet : ∀ q rd, s.open q → readers q = some rd → rd.quiet →
      s.core.store = core.store → (core.replicas rd.replica).held = none →
      rd.Quiet core.store (newest declares (core.visible rd.replica))) :
    (s.advance declares core readers).Inv declares := by
  -- a reader that has answered keeps its record, and its answer needs no store
  have hanswered : ∀ q rd, s.open q = false → readers q = some rd →
      s.readers q = some rd ∧ ∃ answer, rd.stage = .answered answer := by
    intro q rd hopen hrd
    rw [hclosed q hopen] at hrd
    refine ⟨hrd, ?_⟩
    rw [System.open_of_running hrd] at hopen
    unfold Reader.running at hopen
    split at hopen
    · next answer hstage => exact ⟨answer, hstage⟩
    · exact absurd hopen (by simp)
  have hreaders : ∀ q rd, (s.advance declares core readers).readers q = some rd →
      ∃ rd₀, readers q = some rd₀ ∧
        rd = if s.open q then rd₀.observe declares s.core core else rd₀ := by
    intro q rd hrd
    obtain ⟨rd₀, hrd₀, heq⟩ := map_eq_some_iff.1 hrd
    exact ⟨rd₀, hrd₀, heq.symm⟩
  refine ⟨hcore, ?_, ?_⟩
  · intro q rd hrd hflag
    obtain ⟨rd₀, hrd₀, rfl⟩ := hreaders q rd hrd
    cases hopen : s.open q with
    | true =>
      simp only [hopen, if_true, Reader.observe, and_eq_true, decide_eq_true_eq] at hflag ⊢
      exact hsealed q rd₀ hopen hrd₀ hflag.1 hflag.2
    | false =>
      obtain ⟨hold, answer, hstage⟩ := hanswered q rd₀ hopen hrd₀
      simp only [hopen, false_eq_true, if_false] at hflag ⊢
      have := hs.sealedReaders q rd₀ hold hflag
      simp only [Reader.Sealed, hstage] at this ⊢
      exact this
  · intro q rd hrd hflag
    obtain ⟨rd₀, hrd₀, rfl⟩ := hreaders q rd hrd
    cases hopen : s.open q with
    | true =>
      simp only [hopen, if_true, Reader.observe, and_eq_true, decide_eq_true_eq,
        isNone_iff_eq_none] at hflag ⊢
      exact hquiet q rd₀ hopen hrd₀ hflag.1.1 hflag.1.2 hflag.2
    | false =>
      obtain ⟨hold, answer, hstage⟩ := hanswered q rd₀ hopen hrd₀
      simp only [hopen, false_eq_true, if_false] at hflag ⊢
      have := hs.quietReaders q rd₀ hold hflag
      simp only [Reader.Quiet, hstage] at this ⊢
      exact this

theorem System.Inv.advance_core (hs : s.Inv declares) (hcore : core.Inv declares)
    (hentry : core.store.entry = s.core.store.entry) :
    (s.advance declares core s.readers).Inv declares := by
  apply hs.advance hcore (fun _ _ => rfl)
  · intro q rd _ hrd hflag _
    exact (hs.sealedReaders q rd hrd hflag).of_entry_eq hentry
  · intro q rd hopen hrd hflag _ _
    have hrunning := (System.open_of_running hrd).symm.trans hopen
    exact (hs.quietReaders q rd hrd hflag).of_running hrunning hentry

theorem Core.startWrite_store {c' : Core} {r w : Nat} (h : c.startWrite r w = some c') :
    c'.store = c.store := by
  unfold Core.startWrite at h
  split at h
  · split at h
    · obtain ⟨stage, _, rfl⟩ := map_eq_some_iff.1 h
      rfl
    · cases h
      rfl
  · exact absurd h (by simp)

section
variable (hs : s.Inv declares)
include hs

theorem System.Inv.write {w : Nat} {outcome : Outcome} {again : Bool}
    (hok : NoOutdatedPlain declares s (.write w outcome again)) {wr : Writer}
    (hw : s.core.writers w = some wr) :
    (s.advance declares (s.core.write w wr outcome again) s.readers).Inv declares := by
  have hcore := hs.core.write hw outcome again
  obtain ⟨hentry, _⟩ | ⟨hcommit, hstore⟩ := s.core.write_store w wr outcome again
  · exact hs.advance_core hcore hentry
  · have hcommits : s.commits (.write w outcome again) = some wr.snap := by
      simp [System.commits, hw, hcommit]
    apply hs.advance hcore (fun _ _ => rfl)
    · intro q rd hopen hrd hflag hnewest
      have hrunning := (System.open_of_running hrd).symm.trans hopen
      rw [hstore]
      apply (hs.sealedReaders q rd hrd hflag).createOrUpdateBridge hs.core
        (hs.core.writer w wr hw).snap
      · rw [← hnewest]
        simp only [Core.visible, Core.write_taken, hstore, Store.createOrUpdateBridge,
          List.append_assoc]
      · intro p hp d hd
        exact hok wr.snap p hcommits hp q rd hrd hrunning d hd
    · intro q rd hopen hrd hflag hsame _
      have hrunning := (System.open_of_running hrd).symm.trans hopen
      exact (hs.quietReaders q rd hrd hflag).of_running hrunning (by rw [hsame])

theorem System.Inv.declaration {r q : Nat} (hq : s.readers q = none) (hreplica : rd.replica = r)
    (hstage : rd.stage = .owner) (hheld : rd.held = (s.core.replicas r).held.bind Held.entry) :
    (s.advance declares s.core (update s.readers q (some rd))).Inv declares := by
  have hnew : ∀ n rd', update s.readers q (some rd) n = some rd' →
      (n = q ∧ rd' = rd) ∨ s.readers n = some rd' := by
    intro n rd' hn
    obtain ⟨hnq, hrd⟩ | ⟨-, hold⟩ := update_cases hn
    · exact Or.inl ⟨hnq, (some.inj hrd).symm⟩
    · exact Or.inr hold
  apply hs.advance hs.core
  · intro n hopen
    have hnq : n ≠ q := by
      rintro rfl
      simp [System.open, hq] at hopen
    rw [update_of_ne hnq]
  · intro n rd' hopen hrd hflag hnewest
    obtain ⟨_, rfl⟩ | hold := hnew n rd' hrd
    · rw [newest_visible hs.core, hreplica, ← hheld] at hnewest
      simpa only [Reader.Sealed, hstage] using hnewest
    · exact hs.sealedReaders n rd' hold hflag
  · intro n rd' hopen hrd hflag _ hnone
    obtain ⟨_, rfl⟩ | hold := hnew n rd' hrd
    · simp only [Reader.Quiet, hstage]
      rw [hheld, ← hreplica, hnone]
      rfl
    · have hrunning := (System.open_of_running hold).symm.trans hopen
      exact (hs.quietReaders n rd' hold hflag).of_running hrunning rfl

theorem System.Inv.read {q : Nat} (hrd : s.readers q = some rd) (hrunning : rd.running)
    (ok : Bool) {stage : ReadStage}
    (hlookup : lookup s.core.store (s.core.replicas rd.replica).confirmed rd.held ok rd.stage =
      (stage, confirmed)) :
    (s.advance declares (s.core.confirm rd.replica confirmed) (update s.readers q
      (some { rd with stage := stage, quiet := rd.quiet && ok }))).Inv declares := by
  have hcore : (s.core.confirm rd.replica confirmed).Inv declares := by
    apply hs.core.confirm
    have hjust := lookup_confirmed hs.core.store (hs.core.replica rd.replica).confirmed rd.held ok
      rd.stage
    rw [hlookup] at hjust
    exact hjust
  have hvisible (r : Nat) : (s.core.confirm rd.replica confirmed).visible r = s.core.visible r := by
    by_cases hr : r = rd.replica
    · simp [Core.visible, Core.confirm, Core.setReplica, hr]
    · simp [Core.visible, Core.confirm, Core.setReplica, update_of_ne hr]
  have hheld (r : Nat) : ((s.core.confirm rd.replica confirmed).replicas r).held =
      (s.core.replicas r).held := by
    by_cases hr : r = rd.replica
    · simp [Core.confirm, Core.setReplica, hr]
    · simp [Core.confirm, Core.setReplica, update_of_ne hr]
  apply hs.advance hcore
  · intro n hopen
    have hnq : n ≠ q := by
      rintro rfl
      rw [System.open_of_running hrd, hrunning] at hopen
      exact absurd hopen (by simp)
    rw [update_of_ne hnq]
  · intro n rd' hopen hn hflag _
    by_cases hnq : n = q
    · rw [hnq, update_self] at hn
      cases hn
      have hnext := (hs.sealedReaders q rd hrd hflag).lookup
        (s.core.replicas rd.replica).confirmed ok
      rw [hlookup] at hnext
      exact hnext
    · rw [update_of_ne hnq] at hn
      exact hs.sealedReaders n rd' hn hflag
  · intro n rd' hopen hn hflag _ hnone
    by_cases hnq : n = q
    · rw [hnq, update_self] at hn
      cases hn
      simp only [and_eq_true] at hflag
      obtain ⟨hquiet, rfl⟩ := hflag
      rw [hheld] at hnone
      have hnext := (hs.quietReaders q rd hrd hquiet).lookup hs.core hrunning hnone
      rw [hlookup] at hnext
      rw [hvisible]
      exact hnext
    · rw [update_of_ne hnq] at hn
      have hrun := (System.open_of_running hn).symm.trans hopen
      exact (hs.quietReaders n rd' hn hflag).of_running hrun rfl

theorem step_inv {e : Event} (hok : NoOutdatedPlain declares s e)
    (hstep : step declares s e = some t) : t.Inv declares := by
  cases e with
  | take r stamp =>
    cases hstep
    exact hs.advance_core (hs.core.take r stamp) rfl
  | startWrite r w =>
    obtain ⟨core, hstart, rfl⟩ := map_eq_some_iff.1 hstep
    exact hs.advance_core (hs.core.startWrite hstart) (by rw [Core.startWrite_store hstart])
  | write w outcome again =>
    obtain ⟨wr, hw, rfl⟩ := map_eq_some_iff.1 hstep
    exact hs.write hok hw
  | declaration r q =>
    simp only [step] at hstep
    split at hstep
    · exact absurd hstep (by simp)
    · next hq =>
      cases hstep
      exact hs.declaration hq rfl rfl rfl
  | read q ok =>
    obtain ⟨rd, hrd, hread⟩ := bind_eq_some_iff.1 hstep
    split at hread
    · next hrunning =>
      cases hread
      exact hs.read hrd hrunning ok rfl
    · exact absurd hread (by simp)

end

theorem initial_inv : initial.Inv declares where
  core := initial_core_inv
  sealedReaders := by simp [initial]
  quietReaders := by simp [initial]

/-- In every run in which no plain birth is stored that is outdated on a replica
whose `Declaration` is under way: a call during which the newest word visible
to its replica was sealed all along answers sealed or unavailable; and a call
that was undisturbed answers exactly the newest word. -/
theorem answered_of_reaches (h : Reaches (step declares) (NoOutdatedPlain declares) initial s)
    {q : Nat} {rd : Reader} {answer : Declaration} (hrd : s.readers q = some rd)
    (hanswer : rd.stage = .answered answer) :
    (rd.sealedSoFar = true → answer = .declaredSealed ∨ answer = .unavailable) ∧
      (rd.quiet = true → answer = asDeclaration (rd.seen.map Word.value)) := by
  have hinv : s.Inv declares :=
    h.invariant initial_inv fun s e t hs hok hstep => step_inv hs hok hstep
  constructor
  · intro hflag
    simpa only [Reader.Sealed, hanswer] using hinv.sealedReaders q rd hrd hflag
  · intro hflag
    simpa only [Reader.Quiet, hanswer] using hinv.quietReaders q rd hrd hflag

def sealedPlainSealed : Int → Option Format
  | 3 => some .sealed
  | 7 => some .plain
  | 9 => some .sealed
  | _ => none

theorem noOutdatedPlain_of_commits {e : Event} (h : s.commits e = none) :
    NoOutdatedPlain declares s e := by
  intro snap p hsnap
  rw [h] at hsnap
  exact absurd hsnap (by simp)

theorem answered_of_held_sealed :
    ∃ s rd answer, Reaches (step sealedPlainSealed) (NoOutdatedPlain sealedPlainSealed) initial s ∧
      s.readers 0 = some rd ∧ rd.stage = .answered answer ∧ rd.sealedSoFar = true ∧
      (answer = .declaredSealed ∨ answer = .unavailable) := by
  have hmeets : Meets (step sealedPlainSealed) (NoOutdatedPlain sealedPlainSealed) initial
      [.take 0 3, .declaration 0 0, .read 0 true, .read 0 true] :=
    ⟨noOutdatedPlain_of_commits rfl, fun _ _ => ⟨noOutdatedPlain_of_commits rfl,
      fun _ _ => ⟨noOutdatedPlain_of_commits rfl, fun _ _ => ⟨noOutdatedPlain_of_commits rfl,
        fun _ _ => trivial⟩⟩⟩⟩
  let rd : Reader :=
    ⟨0, some ⟨.sealed, 3⟩, .answered .declaredSealed, true, false, some ⟨.sealed, 3⟩⟩
  have hview : (replay (step sealedPlainSealed) initial
      [.take 0 3, .declaration 0 0, .read 0 true, .read 0 true]).bind (·.readers 0) = some rd := by
    decide +kernel
  obtain ⟨s, hs, hrd⟩ := bind_eq_some_iff.1 hview
  have hreaches := reaches_of_replay _ hmeets hs
  exact ⟨s, rd, _, hreaches, hrd, rfl, rfl, (answered_of_reaches hreaches hrd rfl).1 rfl⟩

/-- A call finds the first birth held. Before it looks into the store, its replica
takes the last birth and another replica stores the one in between: the call
answers plain, although the newest word was sealed throughout. -/
theorem outdated_plain_answered :
    ∃ s rd, Reaches (step sealedPlainSealed) (fun _ _ => True) initial s ∧
      s.readers 0 = some rd ∧ rd.sealedSoFar = true ∧ rd.stage = .answered .declaredPlain := by
  let rd : Reader :=
    ⟨0, some ⟨.sealed, 3⟩, .answered .declaredPlain, true, false, some ⟨.sealed, 9⟩⟩
  have hview : (replay (step sealedPlainSealed) initial
      [.take 0 3, .declaration 0 0, .read 0 true, .take 0 9, .take 1 7, .startWrite 1 0,
        .write 0 .done false, .read 0 true]).map (·.readers 0) = some (some rd) := by
    decide +kernel
  obtain ⟨s, hreaches, hrd⟩ := exists_reaches_of_replay hview
  exact ⟨s, rd, hreaches, hrd, rfl, rfl⟩

end MeshsatHub.Egress
