import MeshsatHub.Hubmsg.Events

/-!
# The state of an operation is the projection of its evidence

The row of an operation is the lock: while a call holds it no other one commits an event of that
operation.
-/

namespace MeshsatHub.Hubmsg
open Interleaving Runs List Function
variable {digest : Digest} {g : MsgStore} {k : Key} {ev : MsgOpEvent} {op : Operation}

def eventsOf (g : MsgStore) (k : Key) : List MsgOpEvent := g.events.filter fun e => e.key = k

structure Fits (digest : Digest) (g : MsgStore) (ev : MsgOpEvent) (op : Operation) : Prop where
  row : ∃ r, g.ops ev.key = some r ∧ op = r.operation ev.key ∧
    ev.eventID = eventIDFor digest ev.key r.createdAt ev.kind ev.eventClass ev.reason
  allowed : (ev.kind, ev.eventClass, ev.authority) ∈ allowedKinds

structure RowSound (events : List MsgOpEvent) (k : Key) (r : MsgOp) : Prop where
  revs : events.map MsgOpEvent.rev = range' 1 r.rev
  projection : (r.state, r.conflict) = project (r.operation k) events

/-- What holds of the store. -/
structure StoreSound (digest : Digest) (g : MsgStore) : Prop where
  nodup : (g.events.map MsgOpEvent.eventID).Nodup
  rows : ∀ k r, g.ops k = some r → RowSound (eventsOf g k) k r
  events : ∀ e ∈ g.events, ∃ op, Fits digest g e op
  recorded : ∀ e ∈ g.events, (e.key, e.evidence) ∈ g.recorded
  stored : ∀ kx ∈ g.recorded, ∃ r, g.ops kx.1 = some r ∧ ∃ e ∈ g.events, e.eventID =
    eventIDFor digest kx.1 r.createdAt kx.2.kind kx.2.eventClass kx.2.reason

structure Inserted (g : MsgStore) (ev : MsgOpEvent) : Prop where
  rev : ∃ r, g.ops ev.key = some r ∧ ev.rev = r.rev + 1
  inserting : ev.eventID ∈ g.inserting
  fresh : ev.eventID ∉ g.events.map MsgOpEvent.eventID

def StageSound (g : MsgStore) (ev : MsgOpEvent) (op : Operation) : Stage → Prop
  | .locked rev => ∃ r, g.ops ev.key = some r ∧ r.rev = rev
  | .checked rev => ∃ r, g.ops ev.key = some r ∧ r.rev = rev
  | .inserted => Inserted g ev
  | .projected state conflict =>
    Inserted g ev ∧ (state, conflict) = project op (listMsgEvents (g.events ++ [ev]) ev.key)
  | .updated state conflict =>
    Inserted g ev ∧ (state, conflict) = project op (listMsgEvents (g.events ++ [ev]) ev.key)

/-- What holds of a call that records an event. -/
def CallSound (digest : Digest) (g : MsgStore) : Adding → Prop
  | .waiting ev op => Fits digest g ev op
  | .holding ev op stage => Fits digest g ev op ∧ g.locked ev.key = true ∧ StageSound g ev op stage
  | .ended => True

/-- The row that a call holds. -/
def Adding.held : Adding → Option Key
  | .holding ev _ _ => some ev.key
  | _ => none

def Adding.inserts : Adding → Option UUID
  | .holding ev _ stage => if stage.hasInserted then some ev.eventID else none
  | _ => none

/-- Two calls hold different rows and insert different events. -/
structure Apart (l m : Adding) : Prop where
  held : ∀ k, l.held = some k → m.held ≠ some k
  inserts : ∀ id, l.inserts = some id → m.inserts ≠ some id

variable {l m l' : Adding} {g' : MsgStore} {events : List MsgOpEvent} {s : System MsgStore Adding}
  {r : MsgOp} {state : EventClass} {conflict : Bool}

instance : Std.Symm Apart where
  symm _ _ h := ⟨fun k hm hl => h.held k hl hm, fun id hm hl => h.inserts id hl hm⟩

theorem apart_ended (m : Adding) : Apart .ended m where
  held _ h := nomatch h
  inserts _ h := nomatch h

theorem apart_waiting (ev : MsgOpEvent) (op : Operation) (m : Adding) :
    Apart (.waiting ev op) m where
  held _ h := nomatch h
  inserts _ h := nomatch h

theorem CallSound.inserting (h : CallSound digest g m) {id : UUID} (hid : m.inserts = some id) :
    id ∈ g.inserting := by
  cases m with
  | waiting ev op | ended => cases hid
  | holding ev op stage =>
    obtain ⟨-, -, hstage⟩ := h
    cases stage with cases hid
    | inserted => exact hstage.inserting
    | projected state conflict | updated state conflict => exact hstage.1.inserting

/-- A change of the store that keeps the operations and at most adds events of one of them. -/
structure Extends (g g' : MsgStore) : Prop where
  ops : ∀ k r, g.ops k = some r → ∃ r', g'.ops k = some r' ∧ r'.mid = r.mid ∧
    r'.recipient = r.recipient ∧ r'.createdAt = r.createdAt

theorem Fits.extends (h : Fits digest g ev op) (hext : Extends g g') : Fits digest g' ev op := by
  obtain ⟨⟨r, hr, hop, hid⟩, hallowed⟩ := h
  obtain ⟨r', hr', hmid, hrecipient, hcreated⟩ := hext.ops _ r hr
  refine ⟨⟨r', hr', ?_, ?_⟩, hallowed⟩
  · rw [hop]
    simp only [MsgOp.operation, hmid, hrecipient]
  · rw [hcreated]
    exact hid

theorem extends_of_ops (h : g'.ops = g.ops) : Extends g g' :=
  ⟨fun k r hr => ⟨r, by rw [h]; exact hr, rfl, rfl, rfl⟩⟩

theorem listMsgEvents_snoc (g : MsgStore) (ev : MsgOpEvent) :
    listMsgEvents (g.events ++ [ev]) ev.key =
      (eventsOf g ev.key ++ [ev]).insertionSort fun e e' => e.rev ≤ e'.rev := by
  simp [listMsgEvents, eventsOf, filter_append]

theorem CallSound.frame (h : CallSound digest g m) (hext : Extends g g')
    (hheld : ∀ k, m.held = some k → g'.ops k = g.ops k ∧ g'.locked k = g.locked k ∧
      eventsOf g' k = eventsOf g k)
    (hinserts : ∀ id, m.inserts = some id → (id ∈ g.inserting → id ∈ g'.inserting) ∧
      (id ∉ g.events.map MsgOpEvent.eventID → id ∉ g'.events.map MsgOpEvent.eventID)) :
    CallSound digest g' m := by
  cases m with
  | waiting ev op => exact Fits.extends h hext
  | ended => trivial
  | holding ev op stage =>
    obtain ⟨hfits, hlock, hstage⟩ := h
    obtain ⟨hops, hlocked, hevents⟩ := hheld ev.key rfl
    have hinserted : Inserted g ev → (Adding.holding ev op stage).inserts = some ev.eventID →
        Inserted g' ev := by
      intro hins hid
      refine ⟨by rw [hops]; exact hins.rev, ?_, ?_⟩
      · exact (hinserts _ hid).1 hins.inserting
      · exact (hinserts _ hid).2 hins.fresh
    have hlist : listMsgEvents (g'.events ++ [ev]) ev.key =
        listMsgEvents (g.events ++ [ev]) ev.key := by
      rw [listMsgEvents_snoc, listMsgEvents_snoc, hevents]
    refine ⟨hfits.extends hext, by rw [hlocked]; exact hlock, ?_⟩
    cases stage with
    | locked rev | checked rev => simpa only [StageSound, hops] using hstage
    | inserted => exact hinserted hstage rfl
    | projected state conflict | updated state conflict =>
      exact ⟨hinserted hstage.1 rfl, by rw [hlist]; exact hstage.2⟩

section
variable (h : StoreSound digest g)
include h

theorem StoreSound.of_eq (hops : g'.ops = g.ops) (hevents : g'.events = g.events)
    (hrecorded : g'.recorded = g.recorded) : StoreSound digest g' := by
  obtain ⟨hnodup, hrows, hfits, hrec, hstored⟩ := h
  refine ⟨by rw [hevents]; exact hnodup, ?_, ?_, ?_, ?_⟩
  · intro k r hr
    rw [hops] at hr
    have := hrows k r hr
    unfold eventsOf at this ⊢
    rwa [hevents]
  · intro e he
    rw [hevents] at he
    obtain ⟨op, hop⟩ := hfits e he
    exact ⟨op, hop.extends (extends_of_ops hops)⟩
  · intro e he
    rw [hevents] at he
    rw [hrecorded]
    exact hrec e he
  · intro kx hkx
    rw [hrecorded] at hkx
    rw [hops, hevents]
    exact hstored kx hkx

theorem release_sound (ev : MsgOpEvent) (stage : Stage) :
    StoreSound digest (g.release ev stage) := h.of_eq rfl rfl rfl

omit h in
theorem CallSound.release (h : CallSound digest g m) {stage : Stage}
    (hapart : Apart (.holding ev op stage) m) : CallSound digest (g.release ev stage) m := by
  refine h.frame (extends_of_ops rfl) (fun k hk => ⟨rfl, ?_, rfl⟩)
    (fun id hid => ⟨?_, fun hnot => hnot⟩)
  · have hne : k ≠ ev.key := by
      rintro rfl
      exact hapart.held _ rfl hk
    exact update_of_ne hne _ _
  · intro hmem
    simp only [MsgStore.release]
    split
    next hins =>
      have hne : id ≠ ev.eventID := by
        rintro rfl
        exact hapart.inserts ev.eventID (if_pos hins) hid
      exact mem_filter.2 ⟨hmem, by simpa using hne⟩
    next => exact hmem

omit h in
theorem eventsOf_commit (g : MsgStore) (ev : MsgOpEvent) (state : EventClass) (conflict : Bool)
    (k : Key) :
    eventsOf (g.commit ev state conflict) k =
      if ev.key = k then eventsOf g k ++ [ev] else eventsOf g k := by
  unfold eventsOf MsgStore.commit
  split
  next h => simp [h]
  next h => simp [h]

omit h in
theorem extends_commit (g : MsgStore) (ev : MsgOpEvent) (state : EventClass) (conflict : Bool) :
    Extends g (g.commit ev state conflict) := by
  refine ⟨fun k r hr => ?_⟩
  by_cases hk : k = ev.key
  · subst hk
    refine ⟨{ r with state, conflict, rev := ev.rev }, ?_, rfl, rfl, rfl⟩
    simp [MsgStore.commit, hr]
  · exact ⟨r, by simp [MsgStore.commit, hk, hr], rfl, rfl, rfl⟩

omit h in
theorem revs_snoc {n : Nat} (h : events.map MsgOpEvent.rev = range' 1 n)
    (hrev : ev.rev = n + 1) : (events ++ [ev]).map MsgOpEvent.rev = range' 1 ev.rev := by
  rw [map_append, h, map_singleton, hrev, range'_1_concat, Nat.add_comm 1 n]

omit h in
theorem sorted_snoc {n : Nat} (h : events.map MsgOpEvent.rev = range' 1 n) (hrev : ev.rev = n + 1) :
    (events ++ [ev]).insertionSort (fun e e' => e.rev ≤ e'.rev) = events ++ [ev] := by
  apply Pairwise.insertionSort_eq
  rw [← pairwise_map (R := (· ≤ ·)), revs_snoc h hrev]
  exact pairwise_le_range'

theorem commit_sound (hfits : Fits digest g ev op) (hins : Inserted g ev)
    (hproject : (state, conflict) = project op (listMsgEvents (g.events ++ [ev]) ev.key)) :
    StoreSound digest ((g.commit ev state conflict).record ev) := by
  obtain ⟨⟨r, hr, hop, hid⟩, hallowed⟩ := hfits
  obtain ⟨⟨r₀, hr₀, hrev⟩, -, hfresh⟩ := hins
  obtain rfl : r₀ = r := Option.some.inj (hr₀.symm.trans hr)
  have hrow := h.rows _ _ hr
  have hext : Extends g ((g.commit ev state conflict).record ev) :=
    ⟨(extends_commit g ev state conflict).ops⟩
  refine ⟨?_, ?_, ?_, ?_, ?_⟩
  · show ((g.events ++ [ev]).map MsgOpEvent.eventID).Nodup
    rw [map_append, map_singleton]
    exact nodup_append.2 ⟨h.nodup, nodup_singleton _, by
      intro a ha b hb
      rw [mem_singleton] at hb
      subst hb
      rintro rfl
      exact hfresh ha⟩
  · intro k r' hr'
    have hevents : eventsOf ((g.commit ev state conflict).record ev) k =
        if ev.key = k then eventsOf g k ++ [ev] else eventsOf g k :=
      eventsOf_commit g ev state conflict k
    by_cases hk : ev.key = k
    · subst hk
      have hr'' : r' = { r₀ with state, conflict, rev := ev.rev } := by
        simpa [MsgStore.record, MsgStore.commit, hr] using hr'.symm
      rw [hevents, if_pos rfl, hr'']
      refine ⟨revs_snoc hrow.revs hrev, ?_⟩
      · rw [listMsgEvents_snoc, sorted_snoc hrow.revs hrev, hop] at hproject
        exact hproject
    · have hr'' : g.ops k = some r' := by
        simpa [MsgStore.record, MsgStore.commit, Ne.symm hk] using hr'
      rw [hevents, if_neg hk]
      exact h.rows k r' hr''
  · refine all_mem_snoc (fun e hold => ?_) ⟨op, Fits.extends ⟨⟨r₀, hr, hop, hid⟩, hallowed⟩ hext⟩
    obtain ⟨op', hop'⟩ := h.events e hold
    exact ⟨op', Fits.extends hop' hext⟩
  · exact all_mem_snoc (fun e hold => mem_append_left _ (h.recorded e hold))
      (mem_append_right _ (mem_singleton.2 rfl))
  · refine all_mem_snoc (fun kx hold => ?_) ?_
    · obtain ⟨r', hr', e, he, heid⟩ := h.stored kx hold
      obtain ⟨r'', hr'', -, -, hcreated⟩ := hext.ops _ r' hr'
      exact ⟨r'', hr'', e, mem_append_left _ he, by rw [hcreated]; exact heid⟩
    · obtain ⟨r'', hr'', -, -, hcreated⟩ := hext.ops _ r₀ hr
      exact ⟨r'', hr'', ev, mem_append_right _ (mem_singleton.2 rfl), by rw [hcreated]; exact hid⟩

theorem record_sound (hfits : Fits digest g ev op)
    (hstored : ev.eventID ∈ g.events.map MsgOpEvent.eventID) : StoreSound digest (g.record ev) := by
  obtain ⟨⟨r, hr, -, hid⟩, -⟩ := hfits
  refine ⟨h.nodup, h.rows, ?_, ?_, ?_⟩
  · intro e he
    obtain ⟨op', hop'⟩ := h.events e he
    exact ⟨op', hop'.extends (extends_of_ops rfl)⟩
  · intro e he
    exact mem_append_left _ (h.recorded e he)
  · obtain ⟨e, he, heid⟩ := mem_map.1 hstored
    exact all_mem_snoc h.stored ⟨r, hr, e, he, heid.trans hid⟩

omit h in
abbrev EvidenceInv (digest : Digest) : System MsgStore Adding → Prop :=
  Inv (StoreSound digest) (CallSound digest) Apart

theorem eventsOf_eq_nil (hk : g.ops k = none) : eventsOf g k = [] := by
  refine filter_eq_nil_iff.2 fun e he hkey => ?_
  obtain ⟨op, ⟨r, hr, -⟩, -⟩ := h.events e he
  rw [decide_eq_true_eq] at hkey
  rw [hkey, hk] at hr
  cases hr

omit h in
theorem extends_admitted (hk : g.ops k = none) (mid recipient : String) (createdAt : Int) :
    Extends g (g.admitted k mid recipient createdAt) := by
  refine ⟨fun k' r' hr' => ⟨r', ?_, rfl, rfl, rfl⟩⟩
  have hne : k' ≠ k := by
    rintro rfl
    rw [hk] at hr'
    cases hr'
  exact (update_of_ne hne _ _).trans hr'

theorem admitted_sound (hk : g.ops k = none) (mid recipient : String)
    (createdAt : Int) : StoreSound digest (g.admitted k mid recipient createdAt) := by
  have hext := extends_admitted hk mid recipient createdAt
  refine ⟨h.nodup, ?_, ?_, h.recorded, ?_⟩
  · intro k' r' hr'
    have hevents : eventsOf (g.admitted k mid recipient createdAt) k' = eventsOf g k' := rfl
    change update g.ops k _ k' = some r' at hr'
    rw [hevents]
    by_cases hk' : k' = k
    · subst hk'
      rw [update_self] at hr'
      cases hr'
      rw [eventsOf_eq_nil h hk]
      exact ⟨rfl, rfl⟩
    · rw [update_of_ne hk'] at hr'
      exact h.rows k' r' hr'
  · intro e he
    obtain ⟨op, hop⟩ := h.events e he
    exact ⟨op, hop.extends hext⟩
  · intro kx hkx
    obtain ⟨r', hr', e, he, heid⟩ := h.stored kx hkx
    obtain ⟨r'', hr'', -, -, hcreated⟩ := hext.ops _ r' hr'
    exact ⟨r'', hr'', e, he, by rw [hcreated]; exact heid⟩

end

theorem CallSound.row (h : CallSound digest g m) (hheld : m.held = some k) : g.ops k ≠ none := by
  cases m with cases hheld
  | holding ev op stage =>
    obtain ⟨r, hr, -⟩ := h.1.row
    rw [hr]
    exact Option.some_ne_none r

theorem begin_inv (h : EvidenceInv digest s) {b : Begin}
    (hstep : begin digest s.shared b = some (g', l)) : EvidenceInv digest ⟨g', s.calls ++ [l]⟩ := by
  revert hstep
  fun_cases begin digest s.shared b with
  | case2 key mid recipient createdAt hk =>
    rintro ⟨⟩
    refine h.begun (admitted_sound h.shared hk mid recipient createdAt) trivial ?_
    intro m hm hlocal
    refine ⟨hlocal.frame (extends_admitted hk _ _ _) ?_
      fun id _ => ⟨fun hid => hid, fun hid => hid⟩, Std.Symm.symm _ _ (apart_ended m)⟩
    intro k hheld
    have hne : k ≠ key := by
      rintro rfl
      exact hlocal.row hheld hk
    exact ⟨update_of_ne hne _ _, rfl, rfl⟩
  | case4 key r time op hk =>
    intro hstep
    obtain ⟨x, hx, heq⟩ := Option.map_eq_some_iff.1 hstep
    cases heq
    refine h.begun h.shared ⟨⟨op, hk, rfl, rfl⟩, Report.evidence_allowed hx⟩ ?_
    intro m hm hlocal
    exact ⟨hlocal, Std.Symm.symm _ _ (apart_waiting _ _ m)⟩
  | _ => rintro ⟨⟩

variable {s : System MsgStore Adding} {i : Nat} {now next : Stage}

section
variable (h : EvidenceInv digest s)
include h

namespace EvidenceInv

theorem release (hi : s.calls[i]? = some (.holding ev op now)) :
    EvidenceInv digest ⟨s.shared.release ev now, s.calls.set i .ended⟩ := by
  refine h.acted hi (release_sound h.shared ev now) trivial ?_
  intro m _ hlocal hapart
  exact ⟨hlocal.release hapart, apart_ended m⟩

theorem goesOn (hi : s.calls[i]? = some (.holding ev op now))
    (hnext : StageSound s.shared ev op next) (hsame : next.hasInserted = now.hasInserted) :
    EvidenceInv digest ⟨s.shared, s.calls.set i (.holding ev op next)⟩ := by
  have hlocal := h.call hi
  refine h.acted hi h.shared ⟨hlocal.1, hlocal.2.1, hnext⟩ ?_
  intro m _ hm hapart
  refine ⟨hm, hapart.held, ?_⟩
  have hinserts := hapart.inserts
  simp only [Adding.inserts, hsame] at hinserts ⊢
  exact hinserts

theorem lock (hi : s.calls[i]? = some (.waiting ev op))
    (hfree : s.shared.locked ev.key = false) {row : MsgOp} (hrow : s.shared.ops ev.key = some row) :
    EvidenceInv digest
      ⟨{ s.shared with locked := update s.shared.locked ev.key true },
        s.calls.set i (.holding ev op (.locked row.rev))⟩ := by
  have hlocal := h.call hi
  refine h.acted hi (h.shared.of_eq rfl rfl rfl)
    ⟨hlocal.extends (extends_of_ops rfl), update_self .., row, hrow, rfl⟩ ?_
  intro m _ hm _
  -- Whoever held the row would have locked it.
  have hother : ∀ k, m.held = some k → k ≠ ev.key := by
    rintro k hk rfl
    cases m with
    | waiting ev' op' | ended => cases hk
    | holding ev' op' stage' =>
      have hkey : ev'.key = ev.key := Option.some.inj hk
      rw [← hkey, hm.2.1] at hfree
      cases hfree
  refine ⟨hm.frame (extends_of_ops rfl) (fun k hk => ⟨rfl, update_of_ne (hother k hk) _ _, rfl⟩)
    (fun id _ => ⟨fun hid => hid, fun hid => hid⟩), ?_, ?_⟩
  · intro k hk hk'
    cases hk
    exact hother _ hk' rfl
  · intro id hid
    cases hid

theorem insert {rev : Nat} (hi : s.calls[i]? = some (.holding ev op (.checked rev)))
    (hfree : ev.eventID ∉ s.shared.inserting)
    (hfresh : ev.eventID ∉ s.shared.events.map MsgOpEvent.eventID) :
    EvidenceInv digest
      ⟨{ s.shared with inserting := s.shared.inserting ++ [ev.eventID] },
        s.calls.set i (.holding { ev with rev := rev + 1 } op .inserted)⟩ := by
  obtain ⟨hfits, hlock, r, hr, hrev⟩ := h.call hi
  have hinserted : Inserted { s.shared with inserting := s.shared.inserting ++ [ev.eventID] }
      { ev with rev := rev + 1 } :=
    ⟨⟨r, hr, by rw [hrev]⟩, mem_append_right _ (mem_singleton.2 rfl), hfresh⟩
  refine h.acted hi (h.shared.of_eq rfl rfl rfl) ⟨⟨hfits.row, hfits.allowed⟩, hlock, hinserted⟩ ?_
  intro m _ hm hapart
  refine ⟨hm.frame (extends_of_ops rfl) (fun k hk => ⟨rfl, rfl, rfl⟩)
    (fun id _ => ⟨mem_append_left _, fun hid => hid⟩), hapart.held, ?_⟩
  intro id hid hid'
  cases hid
  exact hfree (hm.inserting hid')

theorem commit (hi : s.calls[i]? = some (.holding ev op (.updated state conflict))) :
    EvidenceInv digest
      ⟨((s.shared.commit ev state conflict).release ev (.updated state conflict)).record ev,
        s.calls.set i .ended⟩ := by
  obtain ⟨hfits, hlock, hinserted, hproject⟩ := h.call hi
  have hsound := commit_sound h.shared hfits hinserted hproject
  refine h.acted hi (hsound.of_eq rfl rfl rfl) trivial ?_
  intro m _ hm hapart
  refine ⟨?_, apart_ended m⟩
  have hframe : CallSound digest (s.shared.commit ev state conflict) m := by
    apply hm.frame (extends_commit _ ev state conflict)
    · intro k hk
      have hne : k ≠ ev.key := by
        rintro rfl
        exact hapart.held _ rfl hk
      exact ⟨update_of_ne hne _ _, rfl, (eventsOf_commit _ _ _ _ _).trans (if_neg (Ne.symm hne))⟩
    · intro id hid
      refine ⟨fun hmem => hmem, fun hnot hmem => ?_⟩
      obtain hold | hnew := mem_append.1 (map_append ▸ hmem)
      · exact hnot hold
      · rw [map_singleton, mem_singleton] at hnew
        exact hapart.inserts ev.eventID rfl (hnew ▸ hid)
  have hrelease := hframe.release hapart
  exact hrelease.frame (extends_of_ops rfl) (fun k _ => ⟨rfl, rfl, rfl⟩)
    (fun id _ => ⟨fun hid => hid, fun hid => hid⟩)

theorem found {rev : Nat} (hi : s.calls[i]? = some (.holding ev op (.locked rev)))
    (hstored : ev.eventID ∈ s.shared.events.map MsgOpEvent.eventID) :
    EvidenceInv digest ⟨(s.shared.release ev (.locked rev)).record ev, s.calls.set i .ended⟩ := by
  have hlocal := h.call hi
  have hsound := record_sound h.shared hlocal.1 hstored
  refine h.acted hi (hsound.of_eq rfl rfl rfl) trivial ?_
  intro m _ hm hapart
  exact ⟨(hm.release hapart).frame (extends_of_ops rfl) (fun k _ => ⟨rfl, rfl, rfl⟩)
    (fun id _ => ⟨fun hid => hid, fun hid => hid⟩), apart_ended m⟩

end EvidenceInv

end

/-- What a statement of a call can do. -/
inductive Performs (g : MsgStore) : Adding → MsgStore → Adding → Prop
  | gone (ev : MsgOpEvent) (op : Operation) : Performs g (.waiting ev op) g .ended
  | lock (ev : MsgOpEvent) (op : Operation) (row : MsgOp) (hfree : g.locked ev.key = false)
      (hrow : g.ops ev.key = some row) :
      Performs g (.waiting ev op) { g with locked := update g.locked ev.key true }
        (.holding ev op (.locked row.rev))
  | release (ev : MsgOpEvent) (op : Operation) (now : Stage) :
      Performs g (.holding ev op now) (g.release ev now) .ended
  | found (ev : MsgOpEvent) (op : Operation) (rev : Nat)
      (hstored : ev.eventID ∈ g.events.map MsgOpEvent.eventID) :
      Performs g (.holding ev op (.locked rev)) ((g.release ev (.locked rev)).record ev) .ended
  | goesOn (ev : MsgOpEvent) (op : Operation) (now next : Stage)
      (hsame : next.hasInserted = now.hasInserted)
      (hnext : StageSound g ev op now → StageSound g ev op next) :
      Performs g (.holding ev op now) g (.holding ev op next)
  | insert (ev : MsgOpEvent) (op : Operation) (rev : Nat) (hfree : ev.eventID ∉ g.inserting)
      (hfresh : ev.eventID ∉ g.events.map MsgOpEvent.eventID) :
      Performs g (.holding ev op (.checked rev))
        { g with inserting := g.inserting ++ [ev.eventID] }
        (.holding { ev with rev := rev + 1 } op .inserted)
  | commit (ev : MsgOpEvent) (op : Operation) (state : EventClass) (conflict : Bool) :
      Performs g (.holding ev op (.updated state conflict))
        (((g.commit ev state conflict).release ev (.updated state conflict)).record ev) .ended

theorem performs_of_eq {o : Outcome} (h : addMsgOpEvent g l o = some (g', l')) :
    Performs g l g' l' := by
  revert h
  fun_cases addMsgOpEvent g l o with rintro ⟨⟩
  | case2 ev op | case4 ev op => exact .gone ev op
  | case3 ev op hfree hdone row hrow => exact .lock ev op row (Bool.eq_false_iff.2 hfree) hrow
  | case5 ev op rev hdone hstored =>
    refine .found ev op rev ?_
    rw [any_eq_true] at hstored
    obtain ⟨e, he, hid⟩ := hstored
    exact mem_map.2 ⟨e, he, of_decide_eq_true hid⟩
  | case9 ev op rev hfree hfresh =>
    refine .insert ev op rev hfree fun hmem => hfresh.2 ?_
    obtain ⟨e, he, hid⟩ := mem_map.1 hmem
    exact any_eq_true.2 ⟨e, he, decide_eq_true (.inl hid)⟩
  | case6 ev op | case13 ev op => exact .goesOn ev op _ _ rfl fun hstage => hstage
  | case11 ev op hdone state conflict hproject =>
    exact .goesOn ev op _ _ rfl fun hstage => ⟨hstage, hproject.symm⟩
  | case15 ev op state conflict => exact .commit ev op state conflict
  | case7 ev op | case10 ev op | case12 ev op | case14 ev op | case16 ev op =>
    exact .release ev op _

theorem perform_inv (h : EvidenceInv digest s) (hi : s.calls[i]? = some l)
    (hperforms : Performs s.shared l g' l') : EvidenceInv digest ⟨g', s.calls.set i l'⟩ := by
  cases hperforms with
  | gone ev op => exact h.acted hi h.shared trivial fun m _ hm _ => ⟨hm, apart_ended m⟩
  | lock ev op row hfree hrow => exact h.lock hi hfree hrow
  | release ev op now => exact h.release hi
  | found ev op rev hstored => exact h.found hi hstored
  | goesOn ev op now next hsame hnext => exact h.goesOn hi (hnext (h.call hi).2.2) hsame
  | insert ev op rev hfree hfresh => exact h.insert hi hfree hfresh
  | commit ev op state conflict => exact h.commit hi

theorem evidence_inv {ok} (hrun : Reaches (step (evidenceProgram digest)) ok ⟨MsgStore.empty, []⟩ s)
    : EvidenceInv digest s := by
  apply hrun.invariant
  · refine Inv.nil ⟨nodup_nil, ?_, ?_, ?_, ?_⟩
    · intro k r hr
      cases hr
    · intro e he
      cases he
    · intro e he
      cases he
    · intro kx hkx
      cases hkx
  · intro t t' e h _ hstep
    obtain ⟨b, g, l, hstart⟩ | ⟨i, o, l, g, l', hi, hact⟩ := step_cases hstep
    · exact begin_inv h hstart
    · exact perform_inv h hi (performs_of_eq hact)

structure Later (g g' : MsgStore) : Prop extends Extends g g' where
  events : g.events ⊆ g'.events

theorem Later.refl (g : MsgStore) : Later g g := ⟨extends_of_ops rfl, fun _ he => he⟩

theorem Later.trans {g₁ g₂ g₃ : MsgStore} (h₁ : Later g₁ g₂) (h₂ : Later g₂ g₃) : Later g₁ g₃ := by
  refine ⟨⟨fun k r hr => ?_⟩, fun e he => h₂.events (h₁.events he)⟩
  obtain ⟨r', hr', hmid, hrecipient, hcreated⟩ := h₁.ops k r hr
  obtain ⟨r'', hr'', hmid', hrecipient', hcreated'⟩ := h₂.ops k r' hr'
  exact ⟨r'', hr'', hmid'.trans hmid, hrecipient'.trans hrecipient, hcreated'.trans hcreated⟩

theorem later_of_performs (h : Performs g l g' l') : Later g g' := by
  cases h with
  | gone ev op | goesOn ev op now next hsame hnext => exact .refl g
  | lock ev op row hfree hrow | release ev op now | found ev op rev hstored
  | insert ev op rev hfree hfresh => exact ⟨extends_of_ops rfl, fun _ he => he⟩
  | commit ev op state conflict =>
    exact ⟨⟨(extends_commit g ev state conflict).ops⟩, fun _ => mem_append_left _⟩

theorem later_of_begin {b : Begin} (h : begin digest g b = some (g', l)) : Later g g' := by
  cases b with simp only [begin] at h
  | admitted key mid recipient createdAt =>
    split at h
    · cases h
    · next hk =>
      cases h
      exact ⟨extends_admitted hk mid recipient createdAt, fun _ he => he⟩
  | report key r time =>
    split at h
    · cases h
    · obtain ⟨x, -, heq⟩ := Option.map_eq_some_iff.1 h
      cases heq
      exact .refl g

theorem later_of_reaches {t : System MsgStore Adding} {ok}
    (hrun : Reaches (step (evidenceProgram digest)) ok s t) : Later s.shared t.shared := by
  induction hrun with
  | refl => exact .refl s.shared
  | tail e _ _ hstep ih =>
    obtain ⟨b, g, l, hstart⟩ | ⟨i, o, l, g, l', -, hact⟩ := step_cases hstep
    · exact ih.trans (later_of_begin hstart)
    · exact ih.trans (later_of_performs (performs_of_eq hact))

theorem listMsgEvents_eq (h : StoreSound digest g) (hr : g.ops k = some r) :
    listMsgEvents g.events k = eventsOf g k := by
  apply Pairwise.insertionSort_eq
  rw [← pairwise_map (R := (· ≤ ·))]
  exact (h.rows k r hr).revs ▸ pairwise_le_range'

theorem mem_eventsOf {e : MsgOpEvent} : e ∈ eventsOf g k ↔ e ∈ g.events ∧ e.key = k := by
  simp [eventsOf]

section
variable (h : StoreSound digest g)
include h

theorem nodup_eventsOf : ((eventsOf g k).map MsgOpEvent.eventID).Nodup :=
  h.nodup.sublist (filter_sublist.map _)

theorem joins_eventsOf : ∀ e ∈ eventsOf g k, Joins (r.operation k) e := by
  intro e he
  obtain ⟨hmem, hkey⟩ := mem_eventsOf.1 he
  obtain ⟨op, ⟨r', -, -, hid⟩, hallowed⟩ := h.events e hmem
  exact ⟨by rw [hkey]; rfl, hallowed, by rw [hid]; exact validV7_eventIDFor ..⟩

theorem row_state (hr : g.ops k = some r) :
    r.state = strongest ((eventsOf g k).map MsgOpEvent.eventClass) := by
  rw [← project_state (nodup_eventsOf h) (joins_eventsOf h), ← (h.rows k r hr).projection]

theorem row_conflict (hr : g.ops k = some r) : r.conflict ↔
      .completed ∈ (eventsOf g k).map MsgOpEvent.eventClass ∧
        .failed ∈ (eventsOf g k).map MsgOpEvent.eventClass := by
  rw [← project_conflict (nodup_eventsOf h) (joins_eventsOf h), ← (h.rows k r hr).projection]

end

theorem Later.rank_le (hlater : Later g g') (h : StoreSound digest g) (h' : StoreSound digest g')
    (hr : g.ops k = some r) : ∃ r', g'.ops k = some r' ∧ rank r'.state ≤ rank r.state := by
  obtain ⟨r', hr', -⟩ := hlater.ops k r hr
  refine ⟨r', hr', ?_⟩
  rw [row_state h hr, row_state h' hr']
  refine rank_strongest_le (map_subset _ fun e he => ?_)
  obtain ⟨hmem, hkey⟩ := mem_eventsOf.1 he
  exact mem_eventsOf.2 ⟨hlater.events hmem, hkey⟩

/-- Recorded evidence of one id is the same evidence of the same operation. -/
def IDsTell (digest : Digest) (g : MsgStore) : Prop :=
  ∀ p ∈ g.recorded, ∀ q ∈ g.recorded, ∀ r r', g.ops p.1 = some r → g.ops q.1 = some r' →
    eventIDFor digest p.1 r.createdAt p.2.kind p.2.eventClass p.2.reason =
      eventIDFor digest q.1 r'.createdAt q.2.kind q.2.eventClass q.2.reason → p = q

theorem mem_classes_iff_recorded (h : StoreSound digest g) (htell : IDsTell digest g)
    (c : EventClass) :
    c ∈ (eventsOf g k).map MsgOpEvent.eventClass ↔ ∃ x, (k, x) ∈ g.recorded ∧ x.eventClass = c := by
  rw [mem_map]
  constructor
  · rintro ⟨e, he, hc⟩
    obtain ⟨hmem, rfl⟩ := mem_eventsOf.1 he
    exact ⟨e.evidence, h.recorded e hmem, hc⟩
  · rintro ⟨x, hx, hc⟩
    obtain ⟨r, hr, e, he, hid⟩ := h.stored _ hx
    obtain ⟨op, ⟨r', hr', -, hid'⟩, -⟩ := h.events e he
    have hsame : (e.key, e.evidence) = (k, x) :=
      htell _ (h.recorded e he) _ hx r' r hr' hr (hid'.symm.trans hid)
    have hkey : e.key = k := congrArg Prod.fst hsame
    have hclass : e.eventClass = x.eventClass := congrArg (fun p => p.2.eventClass) hsame
    exact ⟨e, mem_eventsOf.2 ⟨he, hkey⟩, hclass.trans hc⟩

theorem row_eq_of_recorded (h : StoreSound digest g) (h' : StoreSound digest g')
    (htell : IDsTell digest g) (htell' : IDsTell digest g') {r' : MsgOp} (hr : g.ops k = some r)
    (hr' : g'.ops k = some r') (hsame : ∀ x, (k, x) ∈ g.recorded ↔ (k, x) ∈ g'.recorded) :
    (r.state, r.conflict) = (r'.state, r'.conflict) := by
  have hclasses (c : EventClass) : c ∈ (eventsOf g k).map MsgOpEvent.eventClass ↔
      c ∈ (eventsOf g' k).map MsgOpEvent.eventClass := by
    rw [mem_classes_iff_recorded h htell, mem_classes_iff_recorded h' htell']
    simp only [hsame]
  have hstate : r.state = r'.state := by
    rw [row_state h hr, row_state h' hr', strongest_congr hclasses]
  have hconflict : r.conflict = r'.conflict := by
    rw [Bool.eq_iff_iff, row_conflict h hr, row_conflict h' hr', hclasses, hclasses]
  rw [hstate, hconflict]

abbrev EvidenceRun (digest : Digest) : System MsgStore Adding → System MsgStore Adding → Prop :=
  Reaches (step (evidenceProgram digest)) fun _ _ => True

/-- At every point of every run the row of an operation is the projection of the stored events,
which are numbered through and of different ids; the state only gets stronger; and from the same
recorded evidence every run comes to the same state. -/
theorem row_is_projection (digest : Digest) {s : System MsgStore Adding}
    (hs : EvidenceRun digest ⟨MsgStore.empty, []⟩ s) {k : Key} {r : MsgOp}
    (hr : s.shared.ops k = some r) :
    (s.shared.events.map MsgOpEvent.eventID).Nodup ∧
      (listMsgEvents s.shared.events k).map MsgOpEvent.rev = range' 1 r.rev ∧
      (r.state, r.conflict) = project (r.operation k) (listMsgEvents s.shared.events k) ∧
      (r.conflict = true ↔
        (∃ e ∈ listMsgEvents s.shared.events k, e.eventClass = .completed) ∧
          ∃ e ∈ listMsgEvents s.shared.events k, e.eventClass = .failed) ∧
      (∀ t, EvidenceRun digest s t →
        ∃ r', t.shared.ops k = some r' ∧ rank r'.state ≤ rank r.state) ∧
      ∀ s' r', EvidenceRun digest ⟨MsgStore.empty, []⟩ s' → s'.shared.ops k = some r' →
        IDsTell digest s.shared → IDsTell digest s'.shared →
        (∀ x, (k, x) ∈ s.shared.recorded ↔ (k, x) ∈ s'.shared.recorded) →
        (r.state, r.conflict) = (r'.state, r'.conflict) := by
  have hsound := (evidence_inv hs).shared
  have hrow := hsound.rows k r hr
  rw [listMsgEvents_eq hsound hr]
  refine ⟨hsound.nodup, hrow.revs, hrow.projection, ?_, ?_, ?_⟩
  · rw [row_conflict hsound hr, mem_map, mem_map]
  · intro t ht
    exact (later_of_reaches ht).rank_le hsound (evidence_inv (hs.trans ht)).shared hr
  · intro s' r' hs' hr' htell htell' hsame
    exact row_eq_of_recorded hsound (evidence_inv hs').shared htell htell' hr hr' hsame

theorem idsTell_of_one (hr : g.ops k = some r) (hone : ∀ p ∈ g.recorded, p.1 = k)
    (hids : ∀ p ∈ g.recorded, ∀ q ∈ g.recorded, eventIDFor digest k r.createdAt p.2.kind
      p.2.eventClass p.2.reason =
      eventIDFor digest k r.createdAt q.2.kind q.2.eventClass q.2.reason → p = q) :
    IDsTell digest g := by
  intro p hp q hq r₁ r₂ hr₁ hr₂ hid
  rw [hone p hp, hr] at hr₁
  rw [hone q hq, hr] at hr₂
  cases hr₁
  cases hr₂
  rw [hone p hp, hone q hq] at hid
  exact hids p hp q hq hid

/-- An operation whose recipient stores it, and which is refused and forwarded as well. -/
def manyReports : Key := ⟨"t", "bridge:a", "op"⟩

def manyReportsDigest : Digest := fun _ _ eventClass _ => [UInt8.ofNat (rank eventClass)]

def storedAck : Report := .ack "b" ⟨1, "op", "m", "bridge:a", "stored", ""⟩

/-- The reports one after the other, each call with its six statements. -/
def reportsInTurn (reports : List Report) : List (Interleaving.Event Begin Outcome) :=
  .start (.admitted manyReports "m" "bridge:b" 0) ::
    reports.zipIdx.flatMap fun ri =>
      .start (.report manyReports ri.1 7) :: replicate 6 (.act (ri.2 + 1) .done)

def statements (i n : Nat) : List (Interleaving.Event Begin Outcome) := replicate n (.act i .done)

/-- Three calls at once: two wait for the row while the third works, whose commit is not seen. -/
def reportsAtOnce : List (Interleaving.Event Begin Outcome) :=
  [.start (.admitted manyReports "m" "bridge:b" 0), .start (.report manyReports .refuse 7),
      .start (.report manyReports storedAck 8), .start (.report manyReports .forward 9)] ++
    statements 3 5 ++ [.act 3 .unseen] ++ statements 1 6 ++ statements 2 6

/-- Three reports in two orders come to the same state. -/
theorem row_is_projection_in_two_orders :
    ∃ s s' r r', EvidenceRun manyReportsDigest ⟨MsgStore.empty, []⟩ s ∧
      EvidenceRun manyReportsDigest ⟨MsgStore.empty, []⟩ s' ∧
      s.shared.ops manyReports = some r ∧ s'.shared.ops manyReports = some r' ∧
      s.shared.recorded ≠ s'.shared.recorded ∧ r.rev = 3 ∧
      (r.state, r.conflict) = (.completed, true) ∧
      (r.state, r.conflict) = (r'.state, r'.conflict) := by
  have hfound := @exists_reaches_of_decide _ _ (step (evidenceProgram manyReportsDigest))
    ⟨MsgStore.empty, []⟩
  obtain ⟨s, hs, hr, hrec⟩ := hfound
    (P := fun s => s.shared.ops manyReports = some ⟨"m", "bridge:b", 0, .completed, true, 3⟩ ∧
      s.shared.recorded = [(manyReports, ⟨.recipientAppStored, .completed, .recipient, ""⟩),
        (manyReports, ⟨.hubForwarded, .forwarded, .hub, ""⟩),
        (manyReports, ⟨.hubRefused, .failed, .hub, "refused_unknown_recipient"⟩)])
    (reportsInTurn [storedAck, .forward, .refuse]) (by decide +kernel)
  obtain ⟨s', hs', hr', hrec'⟩ := hfound
    (P := fun s => s.shared.ops manyReports = some ⟨"m", "bridge:b", 0, .completed, true, 3⟩ ∧
      s.shared.recorded = [(manyReports, ⟨.hubForwarded, .forwarded, .hub, ""⟩),
        (manyReports, ⟨.hubRefused, .failed, .hub, "refused_unknown_recipient"⟩),
        (manyReports, ⟨.recipientAppStored, .completed, .recipient, ""⟩)])
    reportsAtOnce (by decide +kernel)
  have htell : IDsTell manyReportsDigest s.shared :=
    idsTell_of_one hr (by rw [hrec]; decide) (by rw [hrec]; decide)
  have htell' : IDsTell manyReportsDigest s'.shared :=
    idsTell_of_one hr' (by rw [hrec']; decide) (by rw [hrec']; decide)
  obtain ⟨-, -, -, -, -, hsame⟩ := row_is_projection manyReportsDigest hs hr
  refine ⟨s, s', _, _, hs, hs', hr, hr', ?_, rfl, rfl, ?_⟩
  · rw [hrec, hrec']
    decide
  · refine hsame s' _ hs' hr' htell htell' fun x => ?_
    rw [hrec, hrec']
    simp only [mem_cons, not_mem_nil, or_false]
    exact or_comm.trans or_assoc

end MeshsatHub.Hubmsg
