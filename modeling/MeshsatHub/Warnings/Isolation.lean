import MeshsatHub.Warnings.Agreement

/-!
# Isolation of test warnings

The row that a tenant's match points at stands under an identifier the injecting owner chooses, and
the repeat pass signs and sends what that row holds. `injections_isolated` compares two runs that
differ in one owner's injections.
-/

namespace MeshsatHub.Warnings
open Strings TwoRuns List
variable {C : Type}
variable {A : Workspace} {named : List String} {s t : Relay C}
variable (lib : Library C) (world : World) {a : Alert C} (raw : String)
variable {source : Source} {tenants : List Workspace}

section
variable (h : Agree A named s t)
include h

theorem Agree.setWarningRaw_named {identifier : String} (hnamed : Named named source identifier) :
    Agree A named { s with rows := setWarningRaw source identifier raw s.rows } t :=
  ⟨h.rows.alter_named hnamed _, h.matched, h.sent⟩

theorem Agree.processTenant_own_test (ha : a.identifier ∈ named) (kept : Bool) :
    Agree A named (processTenant lib world a .test raw (s, kept) A).1 t := by
  rw [processTenant]
  split
  case h_1 cfg bridges _ _ =>
    simp only
    split
    · exact h
    · apply Agree.deliver_own_test lib world a cfg _ 0 _ rfl
      split
      · exact h.setWarningRaw_named raw ⟨rfl, ha⟩
      · exact h
  case h_2 => exact h

theorem Agree.processTenant_both {x : Workspace} (hx : x.id ≠ A.id ∨ source.isFeed)
    (ha : ¬Named named source a.identifier) (kept : Bool) :
    Agree A named (processTenant lib world a source raw (s, kept) x).1
        (processTenant lib world a source raw (t, kept) x).1 ∧
      (processTenant lib world a source raw (s, kept) x).2 =
        (processTenant lib world a source raw (t, kept) x).2 := by
  rw [processTenant, processTenant]
  split
  case h_1 cfg bridges _ _ =>
    simp only [h.matched.matchKits hx]
    split
    · exact ⟨h, rfl⟩
    · refine ⟨?_, rfl⟩
      have hkept : Agree A named (if (!kept && raw != "") then
            { s with rows := setWarningRaw source a.identifier raw s.rows } else s)
          (if (!kept && raw != "") then
            { t with rows := setWarningRaw source a.identifier raw t.rows } else t) := by
        split
        · exact ⟨h.rows.alter _ _ _, h.matched, h.sent⟩
        · exact h
      by_cases hA : x.id = A.id
      · rw [hA]
        exact hkept.deliver_own_feed lib world a cfg _ 0 (hx.resolve_left (by simp [hA])) _ _
      · exact hkept.deliver_other lib world a cfg _ 0 hA ha _
  case h_2 => exact ⟨h, rfl⟩

theorem Agree.process_own_test (ha : a.identifier ∈ named)
    (hrefs : ∀ r ∈ a.references, r.identifier ∈ named) :
    Agree A named (process lib world a .test raw [A] s) t := by
  have hmarked : Agree A named { s with rows := supersede .test a s.rows } t :=
    ⟨h.rows.supersede_named hrefs, h.matched, h.sent⟩
  exact hmarked.processTenant_own_test lib world raw ha false

section
variable (htenants : ∀ x ∈ tenants, x.id ≠ A.id ∨ source.isFeed = true)
  (ha : ¬Named named source a.identifier)
include htenants ha

theorem Agree.foldl_processTenant (kept : Bool) :
    Agree A named (tenants.foldl (processTenant lib world a source raw) (s, kept)).1
      (tenants.foldl (processTenant lib world a source raw) (t, kept)).1 := by
  induction tenants generalizing s t kept with
  | nil => exact h
  | cons x tenants ih =>
    have hx := h.processTenant_both lib world raw (htenants x (by simp)) ha kept
    have hrest := ih hx.1 (fun y hy => htenants y (mem_cons_of_mem x hy))
      (processTenant lib world a source raw (s, kept) x).2
    rw [foldl_cons, foldl_cons]
    rwa [← Prod.eta (processTenant lib world a source raw (t, kept) x), ← hx.2]

theorem Agree.process_both : Agree A named (process lib world a source raw tenants s)
      (process lib world a source raw tenants t) := by
  have hmarked : Agree A named { s with rows := supersede source a s.rows }
      { t with rows := supersede source a t.rows } :=
    ⟨h.rows.supersede source a, h.matched, h.sent⟩
  exact hmarked.foldl_processTenant lib world raw htenants ha false

end

end

theorem not_named_feed (f : FeedSource) (identifier : String) :
    ¬Named named (.feed f) identifier := fun h => nomatch h.1

theorem Agree.pollMessage (h : Agree A named s t) (f : FeedSource) (m : Message C) :
    Agree A named (pollMessage lib world (.feed f) s m) (pollMessage lib world (.feed f) t m) := by
  have hn : ¬Named named (.feed f) m.alert.identifier := not_named_feed f _
  have hrows := h.rows.upsertWarning world.now hn (toWarning lib m.alert m.raw)
  have hstored : Agree A named { s with rows := (upsertWarning _ _ _ _ s.rows).1 }
      { t with rows := (upsertWarning _ _ _ _ t.rows).1 } := ⟨hrows.1, h.matched, h.sent⟩
  simp only [Warnings.pollMessage, ← hrows.2]
  split
  · exact hstored.process_both lib world m.raw (fun _ _ => .inr rfl) hn
  · exact hstored

theorem Agree.known_eq (h : Agree A named s t) (f : FeedSource) :
    known s.rows (.feed f) = known t.rows (.feed f) := by
  funext identifier sent
  rw [known, known, h.rows (.feed f) identifier (not_named_feed f identifier)]

theorem Agree.poll (h : Agree A named s t) (feeds : List (Feed C)) :
    Agree A named (poll lib world feeds s) (poll lib world feeds t) := by
  apply foldl_rel h
  intro feed _ s t hst
  rw [pollFeed, pollFeed, hst.known_eq feed.source]
  exact foldl_rel hst fun m _ _ _ hst => hst.pollMessage lib world feed.source m

instance : Std.Total (TenantWarning.olderFirst (C := C)) :=
  ⟨fun x y => le_total x.warning.sent y.warning.sent⟩

instance : IsTrans (TenantWarning C) TenantWarning.olderFirst :=
  ⟨fun _ _ _ hxy hyz => le_trans (α := Int) hxy hyz⟩

/-- What a listing shows of a message beside the tenant's own record. -/
def TenantWarning.heading (x : TenantWarning C) : Source × String × Warning C :=
  (x.record.source, x.record.identifier, x.warning)

def TenantWarning.injected (x : TenantWarning C) : Bool := !x.record.source.isFeed

/-- The feed rows behind a feed part. -/
def headings (rows : Rows C) (ps : List (Source × String × List String)) :
    List (Source × String × Warning C) :=
  ps.filterMap fun p => (rows p.1 p.2.1).map fun w => (p.1, p.2.1, w)

theorem map_heading_tenantWarnings (rows : Rows C) (ms : List WarningMatch) :
    ((tenantWarnings rows ms).filter fun x => x.record.source.isFeed).map TenantWarning.heading =
      headings rows (feedPart ms) := by
  induction ms with
  | nil => rfl
  | cons m ms ih =>
    rw [tenantWarnings, headings] at *
    rw [filterMap_cons, feedPart_cons]
    cases hrow : rows m.source m.identifier <;> cases hfeed : m.source.isFeed <;>
      simp [hrow, hfeed, ih, WarningMatch.part, TenantWarning.heading]

variable {ms : List WarningMatch} {rows : Rows C}

theorem isFeed_of_mem_feedPart {p : Source × String × List String} (hp : p ∈ feedPart ms) :
    p.1.isFeed := by
  obtain ⟨m, hm, rfl⟩ := mem_map.1 hp
  exact (mem_filter.1 hm).2

theorem not_named_of_isFeed (hs : source.isFeed) (identifier : String) :
    ¬Named named source identifier := by
  rintro ⟨rfl, -⟩
  exact absurd hs (by decide)

theorem RowsAgree.headings_eq {rows' : Rows C} (h : RowsAgree named rows rows')
    (ms : List WarningMatch) : headings rows (feedPart ms) = headings rows' (feedPart ms) := by
  refine filterMap_congr fun p hp => ?_
  rw [h p.1 p.2.1 (not_named_of_isFeed (isFeed_of_mem_feedPart hp) _)]

theorem listWarningsInForce_headings (s : Relay C) (tenantID : String) (now : Int) :
    ((s.listWarningsInForce tenantID now).filter fun x => x.record.source.isFeed).map
        TenantWarning.heading =
      ((headings s.rows (feedPart (s.matched tenantID))).filter
        fun h => h.2.2.inForce now).insertionSort fun g h => g.2.2.sent ≤ h.2.2.sent := by
  have hsort (l : List (TenantWarning C)) :
      (l.insertionSort TenantWarning.olderFirst).map TenantWarning.heading =
        (l.map TenantWarning.heading).insertionSort fun g h => g.2.2.sent ≤ h.2.2.sent :=
    map_insertionSort _ _ _ _ fun _ _ _ _ => Iff.rfl
  rw [Relay.listWarningsInForce, filter_insertionSort, hsort]
  congr 1
  rw [← map_heading_tenantWarnings, filter_map, filter_filter, filter_filter]
  congr 1
  refine filter_congr fun x _ => ?_
  exact Bool.and_comm _ _

theorem Agree.listWarningsInForce_own (h : Agree A named s t) (now : Int) :
    List.Forall₂ (fun d e => TenantWarning.heading d = TenantWarning.heading e)
      ((s.listWarningsInForce A.id now).filter fun x => !x.injected)
      ((t.listWarningsInForce A.id now).filter fun x => !x.injected) := by
  simp only [TenantWarning.injected, Bool.not_not]
  rw [← forall₂_map_right_iff, ← forall₂_map_left_iff, forall₂_eq_eq_eq,
    listWarningsInForce_headings, listWarningsInForce_headings, h.matched.feeds,
    h.rows.headings_eq]

theorem Agree.tenantWarnings_other (h : Agree A named s t) {x : String} (hx : x ≠ A.id) :
    tenantWarnings s.rows (s.matched x) = tenantWarnings t.rows (t.matched x) := by
  rw [tenantWarnings, tenantWarnings, ← h.matched.others x hx]
  refine filterMap_congr fun m hm => ?_
  rw [h.rows m.source m.identifier (h.matched.apart x hx m hm)]

theorem mem_tenantWarnings_matched {x : TenantWarning C}
    (hx : x ∈ tenantWarnings rows ms) : x.record ∈ ms := by
  obtain ⟨m, hm, hrow⟩ := mem_filterMap.1 hx
  obtain ⟨w, -, rfl⟩ := Option.map_eq_some_iff.1 hrow
  exact hm

variable (cfg : TenantConfig) (bridges : List Bridge)

theorem source_eq_test (hs : (!source.isFeed)) : source = .test := by
  cases source with
  | feed f => exact absurd hs (by simp [Source.isFeed])
  | test => rfl

variable {row : TenantWarning C}

section
variable (h : Agree A named s t)
include h

theorem Agree.repeatRow_own_test (hrow : row.record.source = .test) :
    Agree A named (repeatRow lib world A.id cfg bridges s row) t := by
  rw [repeatRow]
  simp only
  split
  · exact h
  · split
    · exact h
    · exact h.deliver_own_test lib world _ cfg _ _ hrow _

theorem Agree.repeatRow_own_feed {d e : TenantWarning C} (hde : d.heading = e.heading)
    (hfeed : d.record.source.isFeed) :
    Agree A named (repeatRow lib world A.id cfg bridges s d)
      (repeatRow lib world A.id cfg bridges t e) := by
  obtain ⟨hsource, hidentifier, hwarning⟩ : d.record.source = e.record.source ∧
      d.record.identifier = e.record.identifier ∧ d.warning = e.warning := by
    simpa [TenantWarning.heading] using hde
  rw [repeatRow, repeatRow]
  simp only [← hsource, ← hidentifier, ← hwarning, h.matched.matchKits (x := A.id) (.inr hfeed)]
  split
  · exact h
  · split
    · exact h
    · exact h.deliver_own_feed lib world _ cfg _ _ hfeed _ _

theorem Agree.repeatRow_other {x : Workspace} (hx : x.id ≠ A.id)
    (hrow : ¬Named named row.record.source row.record.identifier) :
    Agree A named (repeatRow lib world x.id cfg bridges s row)
      (repeatRow lib world x.id cfg bridges t row) := by
  rw [repeatRow, repeatRow]
  simp only [h.matched.matchKits (.inl hx)]
  split
  · exact h
  · split
    · exact h
    · exact h.deliver_other lib world _ cfg _ _ hx hrow _

theorem Agree.repeatTenant (x : Workspace) :
    Agree A named (repeatTenant lib world s x) (repeatTenant lib world t x) := by
  rw [Warnings.repeatTenant, Warnings.repeatTenant]
  split
  case h_1 cfg bridges _ _ =>
    split
    · exact h
    · by_cases hx : x.id = A.id
      · -- the owner: injected documents are hidden, the feeds' messages go in step
        rw [hx]
        have hsame := h.listWarningsInForce_own world.now
        refine foldl_related_of_forall TenantWarning.injected ?_ ?_ ?_ _ _ hsame h
        · exact fun s t row hrow hst => hst.repeatRow_own_test lib world cfg bridges
            (source_eq_test hrow)
        · exact fun s t row hrow hst => (hst.symm.repeatRow_own_test lib world cfg bridges
            (source_eq_test hrow)).symm
        · exact fun s t d e hd hde hst => hst.repeatRow_own_feed lib world cfg bridges hde
            (by simpa [TenantWarning.injected] using hd)
      · rw [Relay.listWarningsInForce, Relay.listWarningsInForce, ← h.tenantWarnings_other hx]
        refine foldl_rel h fun row hrow s t hst => ?_
        apply hst.repeatRow_other lib world cfg bridges hx
        have hmem := mem_of_mem_filter ((mem_insertionSort _).1 hrow)
        exact h.matched.apart x.id hx _ (mem_tenantWarnings_matched hmem)
  case h_2 => exact h

end

def namedBy (raw : String) : List String :=
  match lib.parseCAP raw with
  | none => []
  | some a => if a.isTest then a.identifier :: a.references.map (·.identifier) else []

def storedAs (raw : String) : Option String :=
  ((lib.parseCAP raw).filter (·.isTest)).map (·.identifier)

variable {raw : String}

theorem Agree.inject_own (h : Agree A named s t) (hnamed : namedBy lib raw ⊆ named)
    (hdue : NothingDue named world.now s.rows) : Agree A named (inject lib world A raw s) t := by
  rw [inject]
  rw [namedBy] at hnamed
  split
  case h_1 => exact h
  case h_2 a hparse =>
    rw [hparse] at hnamed
    split
    · exact h
    · rename_i htest
      have htest : a.isTest := by simpa using htest
      simp only [htest, if_true, cons_subset] at hnamed
      have hstored : Agree A named
          { s with rows := (upsertWarning world.now .test a.identifier (toWarning lib a raw)
            s.rows).1 } t :=
        ⟨h.rows.upsertWarning_named ⟨rfl, hnamed.1⟩ _ hdue, h.matched, h.sent⟩
      apply hstored.process_own_test lib world raw hnamed.1
      exact fun r hr => hnamed.2 (mem_map_of_mem hr)

theorem Agree.inject_other (h : Agree A named s t) {x : Workspace} (hx : x.id ≠ A.id)
    (hapart : ∀ identifier ∈ storedAs lib raw, identifier ∉ named) :
    Agree A named (inject lib world x raw s) (inject lib world x raw t) := by
  rw [inject, inject]
  split
  case h_1 => exact h
  case h_2 a hparse =>
    split
    · exact h
    · rename_i htest
      have htest : a.isTest := by simpa using htest
      have hn : ¬Named named .test a.identifier := by
        rintro ⟨-, hmem⟩
        refine hapart a.identifier ?_ hmem
        simp [storedAs, hparse, htest]
      have hrows := h.rows.upsertWarning world.now hn (toWarning lib a raw)
      have hstored : Agree A named { s with rows := (upsertWarning _ _ _ _ s.rows).1 }
          { t with rows := (upsertWarning _ _ _ _ t.rows).1 } := ⟨hrows.1, h.matched, h.sent⟩
      apply hstored.process_both lib world raw _ hn
      exact fun y hy => .inl (mem_singleton.1 hy ▸ hx)

/-- The pass is an injection by the owner of `A`. -/
def Event.injectedBy (A : Workspace) : Event C → Bool
  | .inject _ x _ => decide (x = A)
  | _ => false

/-- When the pass runs. -/
def Event.now : Event C → Int
  | .poll world _ => world.now
  | .repeats world => world.now
  | .inject world _ _ => world.now

/-- The identifiers the accepted documents of a tenant's owner have or reference. -/
def namedIn (A : Workspace) (events : List (Event C)) : List String :=
  events.flatMap fun
    | .inject _ x raw => if x = A then namedBy lib raw else []
    | _ => []

/-- The owner's documents keep clear of the others: none has or references an
identifier under which another owner's document is stored, and when one is
injected no other row is due for deletion. -/
structure KeepsClear (A : Workspace) (events : List (Event C)) : Prop where
  apart : ∀ world x raw, Event.inject world x raw ∈ events → x ≠ A →
    ∀ identifier ∈ storedAs lib raw, identifier ∉ namedIn lib A events
  due : Along (step lib) (fun s e => e.injectedBy A = true →
    NothingDue (namedIn lib A events) e.now s.rows) Relay.initial events

def Relay.digestsTo (s : Relay C) (tenantID : String) : List (String × String) :=
  s.outbox.filterMap fun
    | .digest t bridgeID wire => if t = tenantID then some (bridgeID, wire) else none
    | .satellite _ _ _ => none

def Relay.satelliteTo (s : Relay C) (tenantID : String) : List (String × String) :=
  s.outbox.filterMap fun
    | .satellite t imei wire => if t = tenantID then some (imei, wire) else none
    | .digest _ _ _ => none

theorem Workspace.eq_of_id {x y : Workspace} (h : x.id = y.id) : x = y := by
  cases x
  cases h
  rfl

theorem NothingDue.mono {named' : List String} {now : Int}
    (h : NothingDue named now rows) (hsub : named ⊆ named') : NothingDue named' now rows :=
  fun source identifier w hn => h source identifier w fun hnamed => hn ⟨hnamed.1, hsub hnamed.2⟩

variable {events : List (Event C)} {e : Event C}

theorem namedBy_subset {world : World} (h : Event.inject world A raw ∈ events) :
    namedBy lib raw ⊆ namedIn lib A events := by
  intro identifier hid
  refine mem_flatMap.2 ⟨_, h, ?_⟩
  simpa using hid

theorem Agree.filterMap_outbox (h : Agree A named s t) {f : Output → Option (String × String)}
    (hf : ∀ o, o.tenant = A.id → f o = none) : s.outbox.filterMap f = t.outbox.filterMap f := by
  have hother (outbox : List Output) :
      outbox.filterMap f = (outbox.filter fun o => o.tenant != A.id).filterMap f := by
    rw [filterMap_filter]
    refine filterMap_congr fun o _ => ?_
    by_cases ho : o.tenant = A.id <;> simp [ho, hf]
  rw [hother s.outbox, hother t.outbox, h.sent.outputs]

theorem Agree.step_shown (h : Agree A named s t) (he : e.injectedBy A = false)
    (hapart : ∀ world x raw, e = Event.inject world x raw → x ≠ A →
      ∀ identifier ∈ storedAs lib raw, identifier ∉ named) :
    Agree A named (step lib s e) (step lib t e) := by
  cases e with
  | poll world feeds => exact h.poll lib world feeds
  | repeats world => exact foldl_rel h fun x _ _ _ hst => hst.repeatTenant lib world x
  | inject world x raw =>
    have hx : x ≠ A := of_decide_eq_false he
    exact h.inject_other lib world (fun hid => hx (Workspace.eq_of_id hid))
      (hapart world x raw rfl hx)

theorem Agree.step_hidden (h : Agree A named s t) (he : e.injectedBy A)
    (hmem : e ∈ events) (hnamed : namedIn lib A events ⊆ named)
    (hdue : NothingDue named e.now s.rows) : Agree A named (step lib s e) t := by
  cases e with
  | poll | repeats => exact absurd he (by simp [Event.injectedBy])
  | inject world x raw =>
    obtain rfl : x = A := of_decide_eq_true he
    exact h.inject_own lib world (Subset.trans (namedBy_subset lib hmem) hnamed) hdue

/-- Two runs that differ in one owner's injections only send every other tenant
the same digests and satellite messages and leave it the same list of warnings,
if in both the owner's documents keep clear of the others. -/
theorem injections_isolated {A B : Workspace} (hAB : B ≠ A) {events events' : List (Event C)}
    (hsame : (events.filter fun e => !e.injectedBy A) = events'.filter fun e => !e.injectedBy A)
    (h : KeepsClear lib A events) (h' : KeepsClear lib A events') :
    (run lib events).digestsTo B.id = (run lib events').digestsTo B.id ∧
      (run lib events).satelliteTo B.id = (run lib events').satelliteTo B.id ∧
      ∀ limit, (run lib events).listTenantWarnings B.id limit =
        (run lib events').listTenantWarnings B.id limit := by
  have hid : B.id ≠ A.id := fun hid => hAB (Workspace.eq_of_id hid)
  -- what either run names may differ
  let named := namedIn lib A events ++ namedIn lib A events'
  have hleft : namedIn lib A events ⊆ named := subset_append_left _ _
  have hright : namedIn lib A events' ⊆ named := subset_append_right _ _
  have hs : Along (step lib) (fun s e => e ∈ events ∧
      (e.injectedBy A → NothingDue named e.now s.rows)) Relay.initial events :=
    h.due.mono fun e he s hdue => ⟨he, fun hinj => (hdue hinj).mono hleft⟩
  have ht : Along (step lib) (fun s e => e ∈ events' ∧
      (e.injectedBy A → NothingDue named e.now s.rows)) Relay.initial events' :=
    h'.due.mono fun e he s hdue => ⟨he, fun hinj => (hdue hinj).mono hright⟩
  have hpairs : Forall₂ (fun d e => d = e) (events.filter fun e => !e.injectedBy A)
      (events'.filter fun e => !e.injectedBy A) := by
    rw [hsame, forall₂_eq_eq_eq]
  have hagree : Agree A named (run lib events) (run lib events') := by
    refine foldl_related (Event.injectedBy A) ?_ ?_ ?_ events events' hpairs hs ht Agree.initial
    · exact fun s t e he hok hst => hst.step_hidden lib he hok.1 hleft (hok.2 he)
    · exact fun s t e he hok hst => (hst.symm.step_hidden lib he hok.1 hright (hok.2 he)).symm
    · rintro s t d e hd rfl hok hok' hst
      apply hst.step_shown lib hd
      rintro world x raw rfl hx identifier hid hmem
      obtain hmem | hmem := mem_append.1 hmem
      · exact h.apart world x raw hok.1 hx identifier hid hmem
      · exact h'.apart world x raw hok'.1 hx identifier hid hmem
  refine ⟨?_, ?_, ?_⟩
  · apply hagree.filterMap_outbox
    rintro (⟨x, _, _⟩ | _) ho
    · exact if_neg fun hx : x = B.id => hid (hx.symm.trans ho)
    · rfl
  · apply hagree.filterMap_outbox
    rintro (_ | ⟨x, _, _⟩) ho
    · rfl
    · exact if_neg fun hx : x = B.id => hid (hx.symm.trans ho)
  · intro limit
    rw [Relay.listTenantWarnings, Relay.listTenantWarnings, hagree.tenantWarnings_other hid]

/-- A test alert over every kit's area, in force for a month. -/
def drillAlert (identifier text : String) : Alert String :=
  { identifier := identifier, msgType := "Alert", isTest := true, sent := 0
    expires := some 2592000, references := [], hasArea := true, content := text }

/-- Three documents, two of them under the identifier `B-1`. -/
def drillLibrary : Library String where
  parseCAP raw :=
    if raw = "storm" then some (drillAlert "B-1" "storm")
    else if raw = "flood" then some (drillAlert "B-1" "flood")
    else if raw = "siren" then some (drillAlert "A-1" "siren")
    else none
  rawHash raw := raw
  matchTenant _ _ kits := ⟨kits.map (·.bridgeID), ["area"]⟩
  digest a _ _ := some a.content
  toLower s := s

def workspaceA : Workspace := ⟨"t_a", by decide, by decide⟩

def workspaceB : Workspace := ⟨"t_b", by decide, by decide⟩

def drillWorld (now : Int) : World where
  now := now
  tenantsWith := some [workspaceA, workspaceB]
  account _ := some ⟨true, true, [], [], [], 6⟩
  listBridges tenantID := some [⟨"kit-" ++ tenantID, true, ""⟩]
  modemOf _ bridgeID := "modem-" ++ bridgeID
  publishes _ _ := true
  sends _ _ := true

/-- One owner's document, then the other's storm, then a repeat pass. -/
def drillRun (raw : String) : List (Event String) :=
  [.inject (drillWorld 0) workspaceA raw, .inject (drillWorld 60) workspaceB "storm",
    .repeats (drillWorld 22000)]

theorem drillRun_keepsClear (hraw : "B-1" ∉ namedBy drillLibrary raw) :
    KeepsClear drillLibrary workspaceA (drillRun raw) := by
  have hnamed : namedIn drillLibrary workspaceA (drillRun raw) = namedBy drillLibrary raw := by
    have hother : workspaceB ≠ workspaceA := by decide
    simp [namedIn, drillRun, hother]
  refine ⟨?_, ?_, ?_, ?_, trivial⟩
  · intro world x doc hmem hx identifier hid
    rw [hnamed]
    simp only [drillRun, mem_cons, not_mem_nil, or_false, Event.inject.injEq, reduceCtorEq] at hmem
    obtain ⟨-, rfl, -⟩ | ⟨-, -, rfl⟩ := hmem
    · exact absurd rfl hx
    · cases hid
      exact hraw
  · exact fun _ _ _ _ _ hrow => nomatch hrow
  · exact fun hinj => absurd hinj (by decide)
  · exact fun hinj => absurd hinj (by decide)

theorem injections_isolated_siren : (run drillLibrary (drillRun "siren")).digestsTo "t_b" =
        (run drillLibrary (drillRun "none")).digestsTo "t_b" ∧
      (run drillLibrary (drillRun "siren")).satelliteTo "t_b" =
        (run drillLibrary (drillRun "none")).satelliteTo "t_b" ∧
      ∀ limit, (run drillLibrary (drillRun "siren")).listTenantWarnings "t_b" limit =
        (run drillLibrary (drillRun "none")).listTenantWarnings "t_b" limit :=
  injections_isolated drillLibrary (A := workspaceA) (B := workspaceB) (by decide) rfl
    (drillRun_keepsClear (by decide)) (drillRun_keepsClear (by decide))

/-- An owner who injects a flood under the identifier of another workspace's storm
has the next repeat pass publish the flood to that workspace's kit. -/
theorem shared_identifier_replaces_document :
    ∃ (A B : Workspace) (events events' : List (Event String)), B ≠ A ∧
      (events.filter fun e => !e.injectedBy A) = (events'.filter fun e => !e.injectedBy A) ∧
      (run drillLibrary events).digestsTo B.id = [("kit-t_b", "storm"), ("kit-t_b", "storm")] ∧
      (run drillLibrary events').digestsTo B.id = [("kit-t_b", "storm"), ("kit-t_b", "flood")] ∧
      ((run drillLibrary events).listTenantWarnings B.id 100).map (·.warning.content) = ["storm"] ∧
      ((run drillLibrary events').listTenantWarnings B.id 100).map (·.warning.content) =
        ["flood"] := by
  refine ⟨workspaceA, workspaceB,
    [.inject (drillWorld 60) workspaceB "storm", .inject (drillWorld 120) workspaceA "siren",
      .repeats (drillWorld 22000)],
    [.inject (drillWorld 60) workspaceB "storm", .inject (drillWorld 120) workspaceA "flood",
      .repeats (drillWorld 22000)], by decide, rfl, ?_, ?_, ?_, ?_⟩ <;> decide +kernel

end MeshsatHub.Warnings
