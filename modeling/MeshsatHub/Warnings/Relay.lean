import Mathlib
import MeshsatHub.Foundations.Strings

/-!
# The warning relay

Public warnings are polled from feeds, matched to the tenants that have the relay on, signed as
digests and handed to their kits, and again as long as they are in force. An owner may inject a
document of status Test or Exercise for their own tenant. The feed table is keyed by source and
identifier. Parsing, matching and signing are parameters (`Library`). What a pass reads outside the
two tables is its `World`. The columns that only the listings read are one value of type `C`.
-/

namespace MeshsatHub.Warnings
open Strings
variable {C : Type}

inductive FeedSource where
  | dwd
  | meteoalarmNL
  deriving DecidableEq

/-- Where a feed row comes from: a feed, or an owner's injection. -/
inductive Source where
  | feed (f : FeedSource)
  | test
  deriving DecidableEq

def sourceName : Source → String
  | .feed .dwd => "dwd"
  | .feed .meteoalarmNL => "meteoalarm-nl"
  | .test => "test"

def Source.isFeed : Source → Bool
  | .feed _ => true
  | .test => false

/-- A tenant's workspace. Tenant ids are generated (`t_` and hexadecimal digits,
or `default`), so they hold no colon and none is the word `sat`. -/
structure Workspace where
  id : String
  plain : Lacks ':' id
  notSat : id ≠ "sat"
  deriving DecidableEq

/-- One entry of a document's references. -/
structure Reference where
  sender : String
  identifier : String
  sent : String

/-- A parsed CAP document. -/
structure Alert (C : Type) where
  identifier : String
  msgType : String
  -- status Test or Exercise
  isTest : Bool
  sent : Int
  expires : Option Int
  references : List Reference
  -- some info block carries an area
  hasArea : Bool
  content : C

/-- A row of the platform-wide feed table, under its source and identifier. -/
structure Warning (C : Type) where
  msgType : String
  sent : Int
  expires : Option Int
  content : C
  rawHash : String
  firstSeen : Int
  lastSeen : Int
  supersededBy : String
  raw : String

/-- A tenant's relay settings. -/
structure TenantConfig where
  enabled : Bool
  satellite : Bool
  areas : List String
  languages : List String
  feeds : List String
  repeatHours : Int

def TenantConfig.takesFeed (cfg : TenantConfig) (source : Source) : Bool :=
  cfg.feeds.isEmpty || cfg.feeds.contains (sourceName source)

structure Bridge where
  bridgeID : String
  canRelay : Bool
  birth : String

/-- The kits of a tenant. -/
def relayCapable (bridges : List Bridge) : List Bridge :=
  bridges.filter (·.canRelay)

/-- The kits a warning goes to, and why. -/
structure Match where
  bridges : List String
  why : List String

/-- When a kit was last handed a digest. -/
structure HandedAt where
  time : Int
  slot : Nat
  bearers : List String

structure MatchDetail where
  bearers : List (String × List String)
  why : List String
  handed : List (String × HandedAt)
  repeated : Nat
  repeatAt : Option Int

/-- A row of the tenant's matches. -/
structure WarningMatch where
  source : Source
  identifier : String
  msgType : String
  test : Bool
  bridges : List String
  detail : MatchDetail
  matchedAt : Int

/-- The pure functions the relay is built on. -/
structure Library (C : Type) where
  parseCAP : String → Option (Alert C)
  rawHash : String → String
  matchTenant : Alert C → TenantConfig → List Bridge → Match
  -- the digest of an alert, built for a source and languages, encoded and signed
  digest : Alert C → Source → List String → Option String
  toLower : String → String

/-- What a pass reads outside the two tables while it runs. -/
structure World where
  now : Int
  -- `none` where the listing fails
  tenantsWith : Option (List Workspace)
  -- the tenant's own account, enabled or not; `none` without one or unusable
  account : String → Option TenantConfig
  listBridges : String → Option (List Bridge)
  modemOf : String → String → String
  publishes : String → String → Bool
  sends : String → String → Bool

/-- What leaves the hub. -/
inductive Output where
  | digest (tenantID bridgeID wire : String)
  | satellite (tenantID imei wire : String)

def Output.tenant : Output → String
  | .digest tenantID _ _ => tenantID
  | .satellite tenantID _ _ => tenantID

/-- The feed table, keyed by source and identifier. -/
abbrev Rows (C : Type) := Source → String → Option (Warning C)

/-- The tables the relay writes, and what it has sent. -/
structure Relay (C : Type) where
  rows : Rows C
  matched : String → List WarningMatch
  claimed : List String
  outbox : List Output

/-- Nothing polled, matched or sent. -/
def Relay.initial : Relay C where
  rows := fun _ _ => none
  matched := fun _ => []
  claimed := []
  outbox := []

variable (rows : Rows C) (source : Source)

def Rows.alter (identifier : String)
    (f : Option (Warning C) → Option (Warning C)) : Rows C := fun s i =>
  if s = source ∧ i = identifier then f (rows s i) else rows s i

/-- How long a row outlives its last sighting: 30 days, in seconds. -/
def warningKeep : Int := 30 * 24 * 60 * 60

/-- Deletes the rows unseen for longer than that. -/
def Rows.prune (now : Int) : Rows C := fun s i =>
  (rows s i).filter fun w => decide (now - warningKeep ≤ w.lastSeen)

/-- The message is the one the row already holds. -/
def Warning.unchanged (w old : Warning C) : Bool :=
  decide (old.sent = w.sent) && old.rawHash == w.rawHash

/-- The row after an insert, or after the update a conflict turns it into, which
keeps the first sighting and the supersession mark and drops the document. -/
def Warning.replacing (w : Warning C) (now : Int) : Option (Warning C) → Option (Warning C)
  | none => some { w with firstSeen := now, lastSeen := now, supersededBy := "", raw := "" }
  | some old => some { w with
      firstSeen := old.firstSeen, lastSeen := now, supersededBy := old.supersededBy, raw := "" }

/-- Records a message; `true` if it is new or its document changed. -/
def upsertWarning (now : Int) (source : Source) (identifier : String) (w : Warning C)
    (rows : Rows C) : Rows C × Bool :=
  if (rows source identifier).any w.unchanged then
    (rows.alter source identifier (Option.map fun old => { old with lastSeen := now }), false)
  else
    ((rows.alter source identifier (w.replacing now)).prune now, true)

/-- Keeps a matched message's document for the repeats. -/
def setWarningRaw (identifier raw : String) (rows : Rows C) : Rows C :=
  rows.alter source identifier (Option.map fun w => { w with raw := raw })

/-- Records the later message that named this one. -/
def markWarningSuperseded (identifier supersededBy : String) (rows : Rows C) : Rows C :=
  rows.alter source identifier (Option.map fun w => { w with supersededBy := supersededBy })

def WarningMatch.isOf (identifier : String) (m : WarningMatch) : Bool :=
  decide (m.source = source) && m.identifier == identifier

/-- Records a match; a second match keeps the first one's time. -/
def upsertWarningMatch (m : WarningMatch) (ms : List WarningMatch) : List WarningMatch :=
  if ms.any (·.isOf m.source m.identifier) then
    ms.map fun o => if o.isOf m.source m.identifier then { m with matchedAt := o.matchedAt } else o
  else ms ++ [m]

/-- A tenant's match of a message. -/
def getWarningMatch (ms : List WarningMatch) (source : Source) (identifier : String) :
    Option WarningMatch :=
  ms.find? (·.isOf source identifier)

/-- A match with the feed row it points at. -/
structure TenantWarning (C : Type) where
  warning : Warning C
  record : WarningMatch

def tenantWarnings (ms : List WarningMatch) : List (TenantWarning C) :=
  ms.filterMap fun m => (rows m.source m.identifier).map fun w => ⟨w, m⟩

def TenantWarning.newerFirst (x y : TenantWarning C) : Prop :=
  y.record.matchedAt < x.record.matchedAt ∨
    y.record.matchedAt = x.record.matchedAt ∧ y.warning.sent ≤ x.warning.sent

instance : DecidableRel (TenantWarning.newerFirst (C := C)) := fun _ _ =>
  inferInstanceAs (Decidable (_ ∨ _))

def Relay.listTenantWarnings (s : Relay C) (tenantID : String) (limit : Int) :
    List (TenantWarning C) :=
  let limit := if limit ≤ 0 ∨ 500 < limit then 100 else limit
  (((tenantWarnings s.rows (s.matched tenantID)).insertionSort TenantWarning.newerFirst).take
    limit.toNat).map fun x => { x with warning := { x.warning with raw := "" } }

/-- In force, with a kept document, and named by no later message. -/
def Warning.inForce (now : Int) (w : Warning C) : Bool :=
  w.expires.any (fun t => decide (now < t)) && w.raw != "" && w.supersededBy == ""

def TenantWarning.olderFirst (x y : TenantWarning C) : Prop := x.warning.sent ≤ y.warning.sent

instance : DecidableRel (TenantWarning.olderFirst (C := C)) := fun _ _ =>
  inferInstanceAs (Decidable (_ ≤ _))

/-- The tenant's messages the repeat pass works through, oldest first. -/
def Relay.listWarningsInForce (s : Relay C) (tenantID : String) (now : Int) :
    List (TenantWarning C) :=
  ((tenantWarnings s.rows (s.matched tenantID)).filter fun x => x.warning.inForce now).insertionSort
    TenantWarning.olderFirst

/-- The claim on handing a digest to a kit, once per slot. -/
def digestKey (tenantID bridgeID source identifier msgType : String) (slot : Nat) : String :=
  "warn:" ++ tenantID ++ ":" ++ (bridgeID ++ ":" ++ source ++ "/" ++ identifier ++ ":" ++ msgType ++
    if 0 < slot then ":r" ++ toString slot else "")

/-- The claim on sending a digest to a modem, once per message. -/
def satelliteKey (tenantID imei source identifier msgType : String) : String :=
  "warn:sat:" ++ tenantID ++ ":" ++ (imei ++ ":" ++ source ++ "/" ++ identifier ++ ":" ++ msgType)

/-- What one delivery has done so far: claims taken, digests sent, and the
bearers used per kit. -/
structure Handing where
  claimed : List String
  outbox : List Output
  bearers : List (String × List String)

/-- Notes one more bearer for a kit. -/
def addBearer (bridgeID bearer : String) (bearers : List (String × List String)) :
    List (String × List String) :=
  if bearers.any (·.1 == bridgeID) then
    bearers.map fun b => if b.1 == bridgeID then (b.1, b.2 ++ [bearer]) else b
  else bearers ++ [(bridgeID, [bearer])]

def Handing.sendOnce (h : Handing) (key : String) (goesThrough : Bool) (out : Output)
    (bridgeID bearer : String) : Handing :=
  if h.claimed.contains key then h
  else
    { claimed := key :: h.claimed
      outbox := if goesThrough then h.outbox ++ [out] else h.outbox
      bearers := if goesThrough then addBearer bridgeID bearer h.bearers else h.bearers }

/-- The message a delivery is about. -/
structure Subject where
  source : Source
  identifier : String
  msgType : String

variable (lib : Library C) (world : World)

def handOver (tenantID : String) (cfg : TenantConfig)
    (about : Subject) (wire : String) (slot : Nat) (h : Handing) (bridgeID : String) : Handing :=
  let source := sourceName about.source
  let msgType := lib.toLower about.msgType
  let h := h.sendOnce (digestKey tenantID bridgeID source about.identifier msgType slot)
    (world.publishes tenantID bridgeID) (.digest tenantID bridgeID wire) bridgeID "mqtt"
  if !cfg.satellite || decide (0 < slot) then h
  else
    let imei := world.modemOf tenantID bridgeID
    if imei == "" then h
    else h.sendOnce (satelliteKey tenantID imei source about.identifier msgType)
      (world.sends tenantID imei) (.satellite tenantID imei wire) bridgeID "satellite"

/-- Notes when a kit was handed the digest. -/
def setHanded (bridgeID : String) (entry : HandedAt) (handed : List (String × HandedAt)) :
    List (String × HandedAt) :=
  handed.filter (·.1 != bridgeID) ++ [(bridgeID, entry)]

/-- The detail a delivery records, over the one recorded before. -/
def matchDetail (why : List String) (now : Int) (slot : Nat) (bearers : List (String × List String))
    (prior : Option MatchDetail) : MatchDetail :=
  let repeats := decide (0 < slot) && !bearers.isEmpty
  { bearers := bearers
    why := why
    handed := bearers.foldl (fun handed b => setHanded b.1 ⟨now, slot, b.2⟩ handed)
      (prior.elim [] (·.handed))
    repeated := if repeats then slot else prior.elim 0 (·.repeated)
    repeatAt := if repeats then some now else prior.bind (·.repeatAt) }

variable (a : Alert C)

/-- Signs the digest, hands it to each matching kit and records the match. A
digest that cannot be made leaves nothing. -/
def deliver (about : Subject) (tenantID : String) (cfg : TenantConfig) (m : Match) (slot : Nat)
    (prior : Option MatchDetail) (s : Relay C) : Relay C :=
  match lib.digest a about.source cfg.languages with
  | none => s
  | some wire =>
    let h := m.bridges.foldl (handOver lib world tenantID cfg about wire slot)
      ⟨s.claimed, s.outbox, []⟩
    let row : WarningMatch :=
      { source := about.source, identifier := about.identifier, msgType := about.msgType
        test := a.isTest, bridges := m.bridges
        detail := matchDetail m.why world.now slot h.bearers prior, matchedAt := world.now }
    { rows := s.rows
      matched := Function.update s.matched tenantID (upsertWarningMatch row (s.matched tenantID))
      claimed := h.claimed
      outbox := h.outbox }

/-- Comparison without regard to case; the second string is ASCII. -/
def equalFold (s t : String) : Bool := s.toList.map Char.toLower == t.toList.map Char.toLower

/-- An Update or Cancel that names no area is matched by its references. -/
def standsOnReferences : Bool :=
  !equalFold a.msgType "Alert" && !a.references.isEmpty && !a.hasArea

/-- The references that are read: named, and not the message of that identifier
itself. -/
def Alert.earlier (identifier : String) : List String :=
  (a.references.map (·.identifier)).filter fun r => r != "" && r != identifier

def addKits (kits : List Bridge) (went bridges : List String) : List String :=
  went.foldl (fun acc id =>
    if kits.any (·.bridgeID == id) && !acc.contains id then acc ++ [id] else acc) bridges

variable (source : Source)

def matchByReferences (identifier : String) (ms : List WarningMatch) (kits : List Bridge) : Match :=
  let m := (a.earlier identifier).foldl (fun (m : Match) r =>
    match (getWarningMatch ms source r).map (·.bridges) with
    | none => m
    | some went => { bridges := addKits kits went m.bridges, why := m.why ++ ["references " ++ r] })
    ⟨[], []⟩
  { m with bridges := m.bridges.insertionSort (· ≤ ·) }

def matchKits (cfg : TenantConfig) (source : Source)
    (identifier : String) (ms : List WarningMatch) (kits : List Bridge) : Match :=
  let m := lib.matchTenant a cfg kits
  if m.bridges.isEmpty && standsOnReferences a then matchByReferences a source identifier ms kits
  else m

def takes (cfg : TenantConfig) (source : Source) : Bool :=
  cfg.takesFeed source || decide (source = .test)

variable (raw : String)

/-- Matches a stored message to one tenant and delivers it. The Boolean is whether
the document has been kept for the repeats yet. -/
def processTenant (p : Relay C × Bool) (tenant : Workspace) : Relay C × Bool :=
  match world.account tenant.id, world.listBridges tenant.id with
  | some cfg, some bridges =>
    let m := matchKits lib a cfg source a.identifier (p.1.matched tenant.id)
      (relayCapable bridges)
    if !cfg.enabled || !takes cfg source || m.bridges.isEmpty then p
    else
      let s := if !p.2 && raw != "" then
        { p.1 with rows := setWarningRaw source a.identifier raw p.1.rows } else p.1
      (deliver lib world a ⟨source, a.identifier, a.msgType⟩ tenant.id cfg m 0 none s,
        p.2 || raw != "")
  | _, _ => p

/-- Marks the messages that a message names in its references. -/
def supersede (a : Alert C) (rows : Rows C) : Rows C :=
  (a.earlier a.identifier).foldl
    (fun rows r => markWarningSuperseded source r a.identifier rows) rows

/-- Matches a stored message to the tenants and delivers it to their kits. -/
def process (tenants : List Workspace) (s : Relay C) : Relay C :=
  let s := { s with rows := supersede source a s.rows }
  (tenants.foldl (processTenant lib world a source raw) (s, false)).1

/-- The stored form of a CAP message. -/
def toWarning : Warning C :=
  { msgType := a.msgType, sent := a.sent, expires := a.expires, content := a.content
    rawHash := lib.rawHash raw, firstSeen := 0, lastSeen := 0, supersededBy := "", raw := "" }

structure Message (C : Type) where
  alert : Alert C
  raw : String

/-- A feed: what it hands over, given which messages are known already. -/
structure Feed (C : Type) where
  source : FeedSource
  fetch : (String → Option Int → Bool) → Option (List (Message C))

/-- The relay has the message, of that time of sending if one is given. -/
def known (identifier : String) (sent : Option Int) : Bool :=
  (rows source identifier).any fun w => sent.all fun t => decide (w.sent = t)

variable (s : Relay C)

def pollMessage (m : Message C) : Relay C :=
  let (rows, changed) :=
    upsertWarning world.now source m.alert.identifier (toWarning lib m.alert m.raw) s.rows
  let s := { s with rows := rows }
  if changed then process lib world m.alert source m.raw (world.tenantsWith.getD []) s else s

/-- Reads one feed; a feed that cannot be read is passed over. -/
def pollFeed (feed : Feed C) : Relay C :=
  ((feed.fetch (known s.rows (.feed feed.source))).getD []).foldl
    (pollMessage lib world (.feed feed.source)) s

/-- Reads every feed once. -/
def poll (feeds : List (Feed C)) (s : Relay C) : Relay C :=
  feeds.foldl (pollFeed lib world) s

/-- The repeat slot a message is in: how many periods ago it was sent. -/
def slotOf (cfg : TenantConfig) (now sent : Int) : Nat :=
  ((now - sent) / (cfg.repeatHours * 60 * 60)).toNat

/-- Hands one message in force to the tenant's kits again, from the document kept
in the feed table. -/
def repeatRow (tenantID : String) (cfg : TenantConfig)
    (bridges : List Bridge) (s : Relay C) (row : TenantWarning C) : Relay C :=
  let source := row.record.source
  let slot := slotOf cfg world.now row.warning.sent
  match lib.parseCAP row.warning.raw with
  | none => s
  | some a =>
    let m := matchKits lib a cfg source row.record.identifier (s.matched tenantID)
      (relayCapable bridges)
    if !takes cfg source || decide (slot < 1) || m.bridges.isEmpty then s
    else deliver lib world a ⟨source, row.record.identifier, row.warning.msgType⟩ tenantID cfg m
      slot (some row.record.detail) s

def repeatTenant (tenant : Workspace) : Relay C :=
  match world.account tenant.id, world.listBridges tenant.id with
  | some cfg, some bridges =>
    if !cfg.enabled || decide (cfg.repeatHours ≤ 0) then s
    else (s.listWarningsInForce tenant.id world.now).foldl
      (repeatRow lib world tenant.id cfg bridges) s
  | _, _ => s

def repeatInForce : Relay C :=
  (world.tenantsWith.getD []).foldl (repeatTenant lib world) s

/-- Runs one document of status Test or Exercise through the relay for its
owner's tenant alone; any other document is refused. -/
def inject (tenant : Workspace) (raw : String) (s : Relay C) : Relay C :=
  match lib.parseCAP raw with
  | none => s
  | some a =>
    if !a.isTest then s
    else
      let rows := (upsertWarning world.now .test a.identifier (toWarning lib a raw) s.rows).1
      process lib world a .test raw [tenant] { s with rows := rows }

/-- The relay's passes. -/
inductive Event (C : Type) where
  | poll (world : World) (feeds : List (Feed C))
  | repeats (world : World)
  | inject (world : World) (tenant : Workspace) (raw : String)

/-- One pass. -/
def step : Event C → Relay C
  | .poll world feeds => poll lib world feeds s
  | .repeats world => repeatInForce lib world s
  | .inject world tenant raw => inject lib world tenant raw s

/-- The relay after a sequence of passes. -/
def run (events : List (Event C)) : Relay C :=
  events.foldl (step lib) Relay.initial

end MeshsatHub.Warnings
