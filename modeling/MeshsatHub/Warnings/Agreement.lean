import MeshsatHub.Foundations.TwoRuns
import MeshsatHub.Warnings.Relay

/-!
# Relays that agree but for one owner's injections

Two relays are compared by `Agree`.
-/

namespace MeshsatHub.Warnings
open Strings TwoRuns List Function
variable {C : Type}

section Keys

def keyTenant (key : String) : Option String :=
  match split ':' key with
  | _ :: second :: rest => if second = "sat" then rest.head? else some second
  | _ => none

theorem split_colon (s t : String) : split ':' (s ++ ":" ++ t) = split ':' s ++ split ':' t := by
  rw [String.append_assoc]
  apply split_append
  simp

theorem Workspace.split_id (x : Workspace) : split ':' x.id = [x.id] := split_of_lacks x.plain

theorem keyTenant_digestKey (x : Workspace) (bridgeID source identifier msgType : String)
    (slot : Nat) :
    keyTenant (digestKey x.id bridgeID source identifier msgType slot) = some x.id := by
  have hhead : split ':' ("warn:" ++ x.id) = ["warn", x.id] := by
    have hwarn : split ':' ("warn" ++ ":" ++ x.id) = split ':' "warn" ++ split ':' x.id :=
      split_colon _ _
    rw [x.split_id] at hwarn
    exact hwarn
  rw [keyTenant, digestKey, split_colon, hhead]
  simp [x.notSat]

theorem keyTenant_satelliteKey (x : Workspace) (imei source identifier msgType : String) :
    keyTenant (satelliteKey x.id imei source identifier msgType) = some x.id := by
  have hhead : split ':' ("warn:sat:" ++ x.id) = ["warn", "sat", x.id] := by
    have hwarn : split ':' ("warn:sat" ++ ":" ++ x.id) = split ':' "warn:sat" ++ split ':' x.id :=
      split_colon _ _
    rw [x.split_id] at hwarn
    exact hwarn
  rw [keyTenant, satelliteKey, split_colon, hhead]
  simp

end Keys

section Relation
variable (A : Workspace) (named : List String)

def Named (source : Source) (identifier : String) : Prop :=
  source = .test ∧ identifier ∈ named

def RowsAgree (rows rows' : Rows C) : Prop :=
  ∀ source identifier, ¬Named named source identifier →
    rows source identifier = rows' source identifier

/-- The messages of the feeds a tenant matched, with the kits they went to. -/
def feedPart (ms : List WarningMatch) : List (Source × String × List String) :=
  (ms.filter (·.source.isFeed)).map fun m => (m.source, m.identifier, m.bridges)

structure MatchesAgree (ms ms' : String → List WarningMatch) : Prop where
  others : ∀ x, x ≠ A.id → ms x = ms' x
  feeds : feedPart (ms A.id) = feedPart (ms' A.id)
  apart : ∀ x, x ≠ A.id → ∀ m ∈ ms x, ¬Named named m.source m.identifier

structure SentAgree (claimed claimed' : List String) (outbox outbox' : List Output) : Prop where
  claims : ∀ key, keyTenant key ≠ some A.id → (key ∈ claimed ↔ key ∈ claimed')
  outputs : outbox.filter (fun o => o.tenant != A.id) = outbox'.filter fun o => o.tenant != A.id

/-- What may differ is confined to the test rows under the identifiers the owner names, to the
owner's own test matches and claims, and to what the owner is sent. -/
structure Agree (s t : Relay C) : Prop where
  rows : RowsAgree named s.rows t.rows
  matched : MatchesAgree A named s.matched t.matched
  sent : SentAgree A s.claimed t.claimed s.outbox t.outbox

variable {A named}

theorem RowsAgree.symm {rows rows' : Rows C} (h : RowsAgree named rows rows') :
    RowsAgree named rows' rows := fun source identifier hn => (h source identifier hn).symm

theorem MatchesAgree.symm {ms ms' : String → List WarningMatch} (h : MatchesAgree A named ms ms') :
    MatchesAgree A named ms' ms where
  others x hx := (h.others x hx).symm
  feeds := h.feeds.symm
  apart x hx := h.others x hx ▸ h.apart x hx

theorem SentAgree.symm {claimed claimed' : List String} {outbox outbox' : List Output}
    (h : SentAgree A claimed claimed' outbox outbox') :
    SentAgree A claimed' claimed outbox' outbox where
  claims key hkey := (h.claims key hkey).symm
  outputs := h.outputs.symm

theorem Agree.symm {s t : Relay C} (h : Agree A named s t) : Agree A named t s :=
  ⟨h.rows.symm, h.matched.symm, h.sent.symm⟩

theorem Agree.initial : Agree A named (Relay.initial (C := C)) Relay.initial where
  rows _ _ _ := rfl
  matched := ⟨fun _ _ => rfl, rfl, nofun⟩
  sent := ⟨fun _ _ => Iff.rfl, rfl⟩

end Relation

section
variable {named : List String} {rows rows' : Rows C}

theorem RowsAgree.alter (h : RowsAgree named rows rows') (source : Source) (identifier : String)
    (f : Option (Warning C) → Option (Warning C)) :
    RowsAgree named (rows.alter source identifier f) (rows'.alter source identifier f) := by
  intro s i hn
  simp only [Rows.alter, h s i hn]

variable {identifier : String} {source : Source} {now : Int}

theorem RowsAgree.alter_named (h : RowsAgree named rows rows')
    (hnamed : Named named source identifier) (f : Option (Warning C) → Option (Warning C)) :
    RowsAgree named (rows.alter source identifier f) rows' := by
  intro s i hn
  rw [Rows.alter, if_neg, h s i hn]
  rintro ⟨rfl, rfl⟩
  exact hn hnamed

theorem RowsAgree.prune (h : RowsAgree named rows rows') (now : Int) :
    RowsAgree named (rows.prune now) (rows'.prune now) := by
  intro s i hn
  simp only [Rows.prune, h s i hn]

def NothingDue (named : List String) (now : Int) (rows : Rows C) : Prop :=
  ∀ source identifier w, ¬Named named source identifier → rows source identifier = some w →
    now - warningKeep ≤ w.lastSeen

theorem RowsAgree.prune_left (h : RowsAgree named rows rows') (hdue : NothingDue named now rows) :
    RowsAgree named (rows.prune now) rows' := by
  intro s i hn
  rw [Rows.prune, ← h s i hn]
  cases hw : rows s i with
  | none => rfl
  | some w =>
    apply Option.filter_some_pos
    exact decide_eq_true (hdue s i w hn hw)

theorem NothingDue.alter_named (hdue : NothingDue named now rows)
    (hnamed : Named named source identifier) (f : Option (Warning C) → Option (Warning C)) :
    NothingDue named now (rows.alter source identifier f) := by
  intro s i w hn hw
  apply hdue s i w hn
  rw [Rows.alter, if_neg] at hw
  · exact hw
  · rintro ⟨rfl, rfl⟩
    exact hn hnamed

section
variable (h : RowsAgree named rows rows')
include h

theorem RowsAgree.upsertWarning (now : Int) (hn : ¬Named named source identifier) (w : Warning C) :
    RowsAgree named (upsertWarning now source identifier w rows).1
        (upsertWarning now source identifier w rows').1 ∧
      (upsertWarning now source identifier w rows).2 =
        (upsertWarning now source identifier w rows').2 := by
  simp only [Warnings.upsertWarning, ← h source identifier hn]
  split
  · exact ⟨h.alter _ _ _, rfl⟩
  · exact ⟨(h.alter _ _ _).prune now, rfl⟩

theorem RowsAgree.upsertWarning_named (hnamed : Named named source identifier) (w : Warning C)
    (hdue : NothingDue named now rows) :
    RowsAgree named (Warnings.upsertWarning now source identifier w rows).1 rows' := by
  rw [Warnings.upsertWarning]
  split
  · exact h.alter_named hnamed _
  · exact (h.alter_named hnamed _).prune_left (hdue.alter_named hnamed _)

theorem RowsAgree.supersede (source : Source) (a : Alert C) :
    RowsAgree named (supersede source a rows) (supersede source a rows') :=
  foldl_rel h fun _ _ _ _ hrows => hrows.alter _ _ _

theorem RowsAgree.supersede_named {a : Alert C} (hrefs : ∀ r ∈ a.references, r.identifier ∈ named) :
    RowsAgree named (Warnings.supersede .test a rows) rows' := by
  apply foldlRecOn (motive := fun rows => RowsAgree named rows rows') _ _ h
  intro rows hrows r hr
  obtain ⟨ref, href, rfl⟩ := mem_map.1 (mem_of_mem_filter hr)
  exact hrows.alter_named ⟨rfl, hrefs ref href⟩ _

end

variable {A : Workspace}

def WarningMatch.part (m : WarningMatch) : Source × String × List String :=
  (m.source, m.identifier, m.bridges)

def isPartOf (source : Source) (identifier : String) (p : Source × String × List String) : Bool :=
  decide (p.1 = source) && p.2.1 == identifier

theorem isPartOf_part (source : Source) (identifier : String) (m : WarningMatch) :
    isPartOf source identifier m.part = m.isOf source identifier := rfl

/-- Recording a match, on the feed part. -/
def upsertPart (p : Source × String × List String) (ps : List (Source × String × List String)) :
    List (Source × String × List String) :=
  if ps.any (isPartOf p.1 p.2.1) then ps.map fun o => if isPartOf p.1 p.2.1 o then p else o
  else ps ++ [p]

theorem feedPart_append (ms ms' : List WarningMatch) :
    feedPart (ms ++ ms') = feedPart ms ++ feedPart ms' := by
  simp [feedPart]

theorem feedPart_cons (m : WarningMatch) (ms : List WarningMatch) :
    feedPart (m :: ms) = if m.source.isFeed then m.part :: feedPart ms else feedPart ms := by
  rw [feedPart, filter_cons]
  split <;> rfl

variable {m : WarningMatch} {ms ms' : String → List WarningMatch}

theorem WarningMatch.isOf_iff :
    m.isOf source identifier ↔ m.source = source ∧ m.identifier = identifier := by
  simp [WarningMatch.isOf]

theorem feedPart_map {f : WarningMatch → WarningMatch}
    {g : Source × String × List String → Source × String × List String}
    (hfeed : ∀ m, (f m).source = m.source)
    (hpart : ∀ m : WarningMatch, m.source.isFeed → (f m).part = g m.part)
    (ms : List WarningMatch) : feedPart (ms.map f) = (feedPart ms).map g := by
  induction ms with
  | nil => rfl
  | cons m ms ih =>
    rw [map_cons, feedPart_cons, feedPart_cons, ih, hfeed]
    split
    case isTrue h => rw [hpart m h, map_cons]
    case isFalse => rfl

theorem source_upserted (m o : WarningMatch) :
    (if o.isOf m.source m.identifier then { m with matchedAt := o.matchedAt } else o).source =
      o.source := by
  split
  case isTrue h => exact (WarningMatch.isOf_iff.1 h).1.symm
  case isFalse => rfl

theorem feedPart_upsert_test (hm : m.source = .test) (ms : List WarningMatch) :
    feedPart (upsertWarningMatch m ms) = feedPart ms := by
  rw [upsertWarningMatch]
  split
  · rw [feedPart_map (g := id) (source_upserted m), map_id]
    intro o ho
    rw [if_neg]
    · rfl
    · intro h
      rw [(WarningMatch.isOf_iff.1 h).1, hm] at ho
      exact absurd ho (by decide)
  · simp [feedPart, hm, Source.isFeed]

theorem any_feedPart (hs : source.isFeed) (identifier : String) (ms : List WarningMatch) :
    (feedPart ms).any (isPartOf source identifier) = ms.any (·.isOf source identifier) := by
  induction ms with
  | nil => rfl
  | cons m ms ih =>
    rw [feedPart_cons, any_cons, ← ih]
    split
    case isTrue => rfl
    case isFalse h =>
      rw [Bool.eq_false_of_not_eq_true fun hm => h ((WarningMatch.isOf_iff.1 hm).1 ▸ hs)]
      rfl

theorem getWarningMatch_bridges (hs : source.isFeed) (identifier : String)
    (ms : List WarningMatch) : (getWarningMatch ms source identifier).map (·.bridges) =
      ((feedPart ms).find? (isPartOf source identifier)).map (·.2.2) := by
  induction ms with
  | nil => rfl
  | cons m ms ih =>
    rw [feedPart_cons]
    cases hm : m.isOf source identifier with
    | true =>
      have hpart : isPartOf source identifier m.part := hm
      rw [getWarningMatch, find?_cons_of_pos hm,
        if_pos ((WarningMatch.isOf_iff.1 hm).1 ▸ hs), find?_cons_of_pos hpart]
      rfl
    | false =>
      rw [getWarningMatch, find?_cons_of_neg (by simp [hm])]
      apply ih.trans
      split
      · rw [find?_cons_of_neg (by simp [isPartOf_part, hm])]
      · rfl

theorem feedPart_upsert_feed (hm : m.source.isFeed) (ms : List WarningMatch) :
    feedPart (upsertWarningMatch m ms) = upsertPart m.part (feedPart ms) := by
  have hany : (feedPart ms).any (isPartOf m.part.1 m.part.2.1) = _ :=
    any_feedPart hm m.identifier ms
  rw [upsertWarningMatch, upsertPart, hany]
  split
  · apply feedPart_map (source_upserted m)
    intro o ho
    change _ = if o.isOf m.source m.identifier then m.part else o.part
    cases o.isOf m.source m.identifier <;> rfl
  · rw [feedPart_append, feedPart_cons, if_pos hm]
    rfl

theorem matchByReferences_congr {ms ms' : List WarningMatch}
    (h : ms = ms' ∨ source.isFeed ∧ feedPart ms = feedPart ms') (a : Alert C)
    (identifier : String) (kits : List Bridge) : matchByReferences a source identifier ms kits =
      matchByReferences a source identifier ms' kits := by
  obtain rfl | ⟨hs, hparts⟩ := h
  · rfl
  · simp only [matchByReferences, getWarningMatch_bridges hs, hparts]

section
variable (h : MatchesAgree A named ms ms') {x : String}
include h

theorem MatchesAgree.matchKits (hx : x ≠ A.id ∨ source.isFeed) (lib : Library C)
    (a : Alert C) (cfg : TenantConfig) (identifier : String) (kits : List Bridge) :
    matchKits lib a cfg source identifier (ms x) kits =
      matchKits lib a cfg source identifier (ms' x) kits := by
  have hsame : ms x = ms' x ∨ source.isFeed ∧ feedPart (ms x) = feedPart (ms' x) := by
    by_cases hA : x = A.id
    · exact .inr ⟨hx.resolve_left (by simp [hA]), hA ▸ h.feeds⟩
    · exact .inl (h.others x hA)
  simp only [Warnings.matchKits, matchByReferences_congr hsame]

theorem MatchesAgree.upsert_other (hx : x ≠ A.id) (hm : ¬Named named m.source m.identifier) :
    MatchesAgree A named (update ms x (upsertWarningMatch m (ms x)))
      (update ms' x (upsertWarningMatch m (ms' x))) where
  others y hy := by
    by_cases hyx : y = x
    · simp [hyx, h.others x hx]
    · simp [update_of_ne hyx, h.others y hy]
  feeds := by
    rw [update_of_ne (Ne.symm hx), update_of_ne (Ne.symm hx)]
    exact h.feeds
  apart y hy o ho := by
    by_cases hyx : y = x
    · subst hyx
      rw [update_self, upsertWarningMatch] at ho
      split at ho
      · obtain ⟨old, hold, rfl⟩ := mem_map.1 ho
        split
        · exact hm
        · exact h.apart y hy old hold
      · obtain hold | hnew := mem_append.1 ho
        · exact h.apart y hy o hold
        · exact mem_singleton.1 hnew ▸ hm
    · rw [update_of_ne hyx] at ho
      exact h.apart y hy o ho

theorem MatchesAgree.update_own {own own' : List WarningMatch} (hown : feedPart own = feedPart own')
    : MatchesAgree A named (update ms A.id own) (update ms' A.id own') where
  others y hy := by
    rw [update_of_ne hy, update_of_ne hy, h.others y hy]
  feeds := by
    rw [update_self, update_self, hown]
  apart y hy := by
    rw [update_of_ne hy]
    exact h.apart y hy

end

variable {claimed' : List String} {h h' : Handing} {outbox' : List Output} {key : String}

theorem SentAgree.sendOnce_own (hs : SentAgree A h.claimed claimed' h.outbox outbox')
    (hkey : keyTenant key = some A.id) (goesThrough : Bool) (out : Output)
    (hout : out.tenant = A.id) (bridgeID bearer : String) :
    SentAgree A (h.sendOnce key goesThrough out bridgeID bearer).claimed claimed'
      (h.sendOnce key goesThrough out bridgeID bearer).outbox outbox' := by
  rw [Handing.sendOnce]
  split
  · exact hs
  · constructor
    · intro k hk
      rw [mem_cons, hs.claims k hk, or_iff_right]
      rintro rfl
      exact hk hkey
    · cases goesThrough with
      | false => exact hs.outputs
      | true => simp [hs.outputs, hout]

/-- Two deliveries of the same digest, one in each run. -/
structure HandingsAgree (A : Workspace) (h h' : Handing) : Prop where
  sent : SentAgree A h.claimed h'.claimed h.outbox h'.outbox
  bearers : h.bearers = h'.bearers

theorem HandingsAgree.sendOnce (hh : HandingsAgree A h h')
    (hkey : keyTenant key ≠ some A.id) (goesThrough : Bool) (out : Output)
    (bridgeID bearer : String) : HandingsAgree A (h.sendOnce key goesThrough out bridgeID bearer)
      (h'.sendOnce key goesThrough out bridgeID bearer) := by
  have hclaim : h.claimed.contains key = h'.claimed.contains key := by
    rw [Bool.eq_iff_iff, contains_iff_mem, contains_iff_mem]
    exact hh.sent.claims key hkey
  rw [Handing.sendOnce, Handing.sendOnce, ← hclaim]
  split
  · exact hh
  · refine ⟨⟨?_, ?_⟩, ?_⟩
    · intro k hk
      rw [mem_cons, mem_cons, hh.sent.claims k hk]
    · cases goesThrough with
      | false => exact hh.sent.outputs
      | true => simp only [if_true, filter_append, hh.sent.outputs]
    · rw [hh.bearers]

variable (lib : Library C) (world : World) (cfg : TenantConfig) (about : Subject) (wire : String)
  (slot : Nat)

theorem SentAgree.handOver_own (hs : SentAgree A h.claimed claimed' h.outbox outbox')
    (bridgeID : String) :
    SentAgree A (handOver lib world A.id cfg about wire slot h bridgeID).claimed claimed'
      (handOver lib world A.id cfg about wire slot h bridgeID).outbox outbox' := by
  have hlink := hs.sendOnce_own
    (keyTenant_digestKey A bridgeID (sourceName about.source) about.identifier
      (lib.toLower about.msgType) slot)
    (world.publishes A.id bridgeID) (.digest A.id bridgeID wire) rfl bridgeID "mqtt"
  simp only [handOver]
  split
  · exact hlink
  · split
    · exact hlink
    · exact hlink.sendOnce_own (keyTenant_satelliteKey A _ _ _ _) _ _ rfl _ _

theorem HandingsAgree.handOver (hh : HandingsAgree A h h') {x : Workspace} (hx : x.id ≠ A.id)
    (bridgeID : String) : HandingsAgree A (handOver lib world x.id cfg about wire slot h bridgeID)
      (handOver lib world x.id cfg about wire slot h' bridgeID) := by
  have hother : some x.id ≠ some A.id := fun h => hx (Option.some.inj h)
  have hlink := hh.sendOnce
    (keyTenant_digestKey x bridgeID (sourceName about.source) about.identifier
      (lib.toLower about.msgType) slot ▸ hother)
    (world.publishes x.id bridgeID) (.digest x.id bridgeID wire) bridgeID "mqtt"
  simp only [Warnings.handOver]
  split
  · exact hlink
  · split
    · exact hlink
    · exact hlink.sendOnce (keyTenant_satelliteKey x _ _ _ _ ▸ hother) _ _ _ _

theorem SentAgree.foldl_handOver (hs : SentAgree A h.claimed claimed' h.outbox outbox')
    (bridges : List String) :
    SentAgree A (bridges.foldl (handOver lib world A.id cfg about wire slot) h).claimed claimed'
      (bridges.foldl (handOver lib world A.id cfg about wire slot) h).outbox outbox' :=
  foldlRecOn (motive := fun (h : Handing) => SentAgree A h.claimed claimed' h.outbox outbox')
    bridges _ hs fun _ hs bridgeID _ => hs.handOver_own lib world cfg about wire slot bridgeID

theorem HandingsAgree.foldl_handOver (hh : HandingsAgree A h h') {x : Workspace} (hx : x.id ≠ A.id)
    (bridges : List String) :
    HandingsAgree A (bridges.foldl (Warnings.handOver lib world x.id cfg about wire slot) h)
      (bridges.foldl (Warnings.handOver lib world x.id cfg about wire slot) h') :=
  foldl_rel hh fun bridgeID _ _ _ hh => hh.handOver lib world cfg about wire slot hx bridgeID

end

variable {A : Workspace} {named : List String} {s t : Relay C}
variable (lib : Library C) (world : World) (a : Alert C) {about : Subject} (cfg : TenantConfig)
  (m : Match) (slot : Nat)

theorem Agree.deliver_own_test (h : Agree A named s t) (habout : about.source = .test)
    (prior : Option MatchDetail) :
    Agree A named (deliver lib world a about A.id cfg m slot prior s) t := by
  rw [deliver]
  cases lib.digest a about.source cfg.languages with
  | none => exact h
  | some wire =>
    refine ⟨h.rows, ?_, ?_⟩
    · rw [← update_eq_self A.id t.matched]
      apply h.matched.update_own
      rw [feedPart_upsert_test habout, h.matched.feeds]
    · exact SentAgree.foldl_handOver lib world cfg about wire slot
        (h := ⟨s.claimed, s.outbox, []⟩) h.sent m.bridges

theorem Agree.deliver_own_feed (h : Agree A named s t) (habout : about.source.isFeed)
    (prior prior' : Option MatchDetail) :
    Agree A named (deliver lib world a about A.id cfg m slot prior s)
      (deliver lib world a about A.id cfg m slot prior' t) := by
  rw [deliver, deliver]
  cases lib.digest a about.source cfg.languages with
  | none => exact h
  | some wire =>
    refine ⟨h.rows, ?_, ?_⟩
    · apply h.matched.update_own
      rw [feedPart_upsert_feed habout, feedPart_upsert_feed habout, h.matched.feeds]
      rfl
    · have hleft := SentAgree.foldl_handOver lib world cfg about wire slot
        (h := ⟨s.claimed, s.outbox, []⟩) h.sent m.bridges
      exact (SentAgree.foldl_handOver lib world cfg about wire slot
        (h := ⟨t.claimed, t.outbox, []⟩) hleft.symm m.bridges).symm

theorem Agree.deliver_other (h : Agree A named s t) {x : Workspace} (hx : x.id ≠ A.id)
    (habout : ¬Named named about.source about.identifier) (prior : Option MatchDetail) :
    Agree A named (deliver lib world a about x.id cfg m slot prior s)
      (deliver lib world a about x.id cfg m slot prior t) := by
  rw [deliver, deliver]
  cases lib.digest a about.source cfg.languages with
  | none => exact h
  | some wire =>
    have hsent : HandingsAgree A ⟨s.claimed, s.outbox, []⟩ ⟨t.claimed, t.outbox, []⟩ :=
      ⟨h.sent, rfl⟩
    have hfold := hsent.foldl_handOver lib world cfg about wire slot hx m.bridges
    refine ⟨h.rows, ?_, hfold.sent⟩
    simp only [hfold.bearers]
    exact h.matched.upsert_other hx habout

end MeshsatHub.Warnings
