import MeshsatHub.Foundations.Numerals
import MeshsatHub.Foundations.Queues
import MeshsatHub.Topics.Shapes

/-!
# What the forwarder goes by

The events the forwarder is given, the answers of the store and of the directory, the budgets, and
what it remembers. The tokens of a bucket are counted in billionths. The walk of `tak.Sanitize`, the
JSON decoder, the digest and `strings.ToLower` are parameters.
-/

namespace MeshsatHub.Takhosted
open Strings Topics Queues Numerals Function

abbrev Bytes := List UInt8

def second : Int := 1000000000

def minute : Int := 60 * second

/-- The zero `time.Time`. -/
def zeroTime : Int := -62135596800 * second

/-- The bounds on one event. -/
structure Limits where
  maxBytes : Nat
  maxDepth : Nat
  maxElements : Nat
  maxAttrs : Nat
  maxAttrLen : Nat

def clientLimits : Limits := ⟨16 * 1024, 12, 512, 32, 4 * 1024⟩

def upstreamLimits : Limits := ⟨64 * 1024, 16, 2048, 48, 8 * 1024⟩

/-- A recipient that an event names. -/
structure Dest where
  uid : String
  callsign : String

/-- What is known of an accepted event. -/
structure Meta where
  uid : String
  type : String
  time : Int
  stale : Int
  emergency : Bool
  callsign : String
  linkUID : String
  chatID : String
  chatRoom : String
  chatUID0 : String
  chatUID1 : String
  dests : List Dest

def Meta.isChat (m : Meta) : Bool := m.type == "b-t-f"

def Meta.sender (m : Meta) : String := if m.linkUID = "" then m.chatUID0 else m.linkUID

/-- The recipients, each filled in from the chat that names it by the other key. -/
def Meta.addressees (m : Meta) : List Dest :=
  let chatUID := if m.chatID = "" then m.chatUID1 else m.chatID
  m.dests.map fun d =>
    let d := if d.uid = "" ∧ d.callsign ≠ "" ∧ d.callsign = m.chatRoom then
        { d with uid := chatUID } else d
    if d.callsign = "" ∧ d.uid ≠ "" ∧ d.uid = chatUID then { d with callsign := m.chatRoom } else d

structure Position where
  lat : UInt64
  lon : UInt64
  alt : UInt64
  source : String

def isZero (bits : UInt64) : Bool := bits <<< 1 == 0

/-- The forwarder, with the decoders and digests that it uses. `rewrite` is the walk of
`tak.Sanitize` over the tokens of a payload. -/
structure Forwarder where
  chat : Bool
  position : Bytes → Option Position
  rewrite : Bytes → Limits → Int → Option (Bytes × Meta)
  sha256 : Bytes → Bytes
  toLower : String → String

def Forwarder.sanitize (f : Forwarder) (raw : Bytes) (lim : Limits) (now : Int) :
    Option (Bytes × Meta) :=
  if raw = [] ∨ lim.maxBytes < raw.length then none else f.rewrite raw lim now

def hubMarkerPrefixes : List String := ["meshsat-bridge-", "meshsat-device-", "meshsat-hub-"]

def isHubMarkerUID (uid : String) : Bool := hubMarkerPrefixes.any fun p => startsWith uid p

def operatorUIDPrefix : String := "meshsat-hub-op-"

def isControlType (type : String) : Bool :=
  startsWith type "t-x-c-t" || startsWith type "t-x-takp"

/-- One TAK server, by its address; the tenant's own one has a label. -/
structure Upstream where
  address : String
  label : String
  deriving DecidableEq

def Upstream.isHosted (up : Upstream) : Bool := up.label != "external"

structure Device where
  type : String
  label : String

inductive BridgeLookup where
  | found
  | missing
  | failed
  deriving DecidableEq

structure Contact where
  uid : String
  callsign : String
  bridgeID : String
  lastSeen : Int

/-- What the store and the directory answer at some moment. -/
structure World where
  hosted : String → Option Upstream
  external : String → Option Upstream
  device : String → String → Option Device
  bridge : String → String → BridgeLookup
  contacts : String → Option (List Contact)

variable (w : World)

/-- Every server of a tenant, hosted first, each address once. -/
def World.upstreams (tenantID : String) : List Upstream :=
  let add (out : List Upstream) (t : Option Upstream) : List Upstream :=
    match t with
    | none => out
    | some up =>
      if up.address = "" ∨ out.any (fun other => other.address == up.address) then out
      else out ++ [up]
  if tenantID = "" then [] else add (add [] (w.hosted tenantID)) (w.external tenantID)

def artefactDeviceTypes : List String := ["tak"]

def World.isArtefact (tenantID deviceID : String) : Bool :=
  match w.device tenantID deviceID with
  | none => false
  | some d => d.type ∈ artefactDeviceTypes

/-- The name a device is drawn under. -/
def World.callsign (tenantID deviceID : String) : String :=
  match w.device tenantID deviceID with
  | none => deviceID
  | some d => if d.label = "" then deviceID else d.label

structure Bucket where
  tokens : Int
  last : Int

abbrev Limiter := String → Option Bucket

def token : Int := 1000000000

variable (l : Limiter)

/-- Draws one token from a bucket that refills at a rate per second up to the burst. -/
def Limiter.take (key : String) (rate burst now : Int) : Limiter × Bool :=
  let b := (l key).getD ⟨burst * token, now⟩
  let dt := now - b.last
  let b := if 0 < dt then ⟨min (b.tokens + dt * rate) (burst * token), now⟩ else b
  if b.tokens < token then (update l key (some b), false)
  else (update l key (some { b with tokens := b.tokens - token }), true)

def senderRate : Int := 10
def senderBurst : Int := 50
def tenantRate : Int := 50
def tenantBurst : Int := 200
def senderUrgentRate : Int := 2
def senderUrgentBurst : Int := 10
def tenantUrgentRate : Int := 10
def tenantUrgentBurst : Int := 40
def upstreamRate : Int := 50
def upstreamBurst : Int := 500

def Limiter.takeUrgent (topic tenantID : String) (now : Int) : Limiter × Bool :=
  let (l, ok) := l.take ("su|" ++ topic) senderUrgentRate senderUrgentBurst now
  if ok then l.take ("tu|" ++ tenantID) tenantUrgentRate tenantUrgentBurst now else (l, false)

def Limiter.takeRoutine (topic tenantID : String) (now : Int) : Limiter × Bool :=
  let (l, ok) := l.take ("s|" ++ topic) senderRate senderBurst now
  if ok then l.take ("t|" ++ tenantID) tenantRate tenantBurst now else (l, false)

def limiterIdle : Int := 10 * minute

def Limiter.prune (now : Int) : Limiter :=
  fun key => (l key).filter fun b => !(limiterIdle < now - b.last)

def cotOutSuffix : String := "/tak/cot/out"

def parseTAKCotOut (topic : String) : Option (String × String) :=
  match parseBridgeTopic topic with
  | none => none
  | some t => if t.rest = ["tak", "cot", "out"] then some (t.tenant, t.bridge) else none

def containsText (payload : Bytes) (text : String) : Bool :=
  decide (text.toUTF8.data.toList <:+: payload)

def looksUrgent (payload : Bytes) : Bool :=
  containsText payload "<emergency" || containsText payload "type=\"b-a" ||
    containsText payload "type='b-a"

/-- The part of taking an exported event that runs on the bus. -/
def admits (topic : String) (payload : Bytes) (now : Int) : Limiter × Bool :=
  if clientLimits.maxBytes < payload.length then (l, false)
  else
    match parseTAKCotOut topic with
    | none => (l, false)
    | some (tenantID, _) =>
      let (l, ok) := if looksUrgent payload then l.takeUrgent topic tenantID now else (l, false)
      if ok then (l, true) else l.takeRoutine topic tenantID now

inductive Registration where
  | unknown
  | yes
  | no
  deriving DecidableEq

structure RegEntry where
  is : Registration
  expiry : Int

abbrev Registrations := String → Option RegEntry

def bridgeCacheTTL : Int := 30 * second

def Registrations.cached (reg : Registrations) (tenantID bridgeID : String) (now : Int) :
    Option Registration :=
  ((reg (tenantID ++ "|" ++ bridgeID)).filter fun e => now < e.expiry).map (·.is)

def bridgeRegistered (reg : Registrations) (w : World) (tenantID bridgeID : String) (now : Int) :
    Registrations × Registration :=
  if tenantID = "" ∨ bridgeID = "" then (reg, .no)
  else
    match reg.cached tenantID bridgeID now with
    | some is => (reg, is)
    | none =>
      let key := tenantID ++ "|" ++ bridgeID
      match w.bridge tenantID bridgeID with
      | .found => (update reg key (some ⟨.yes, now + bridgeCacheTTL⟩), .yes)
      | .missing => (update reg key (some ⟨.no, now + bridgeCacheTTL⟩), .no)
      | .failed => (reg, .unknown)

/-- Marks with a time, such as the last forwarding of an event. -/
abbrev Marks := String → Option Int

def Marks.prune (marks : Marks) (window now : Int) : Marks :=
  fun key => (marks key).filter fun at' => now - at' < window

def dedupWindow : Int := minute

def hexText (bytes : Bytes) : String :=
  String.ofList (bytes.flatMap fun x => fixedWidth 16 Nat.digitChar 2 x.toNat)

variable (f : Forwarder)

def seenKey (tenantID : String) (line : Bytes) : String :=
  tenantID ++ "|" ++ hexText ((f.sha256 line).take 12)

def isFirst (seen : Marks) (tenantID : String) (line : Bytes) (now : Int) : Bool :=
  match seen (seenKey f tenantID line) with
  | none => true
  | some at' => !(now - at' < dedupWindow)

def echoWindow : Int := minute

def sentKey (tenantID uid : String) (eventTime : Int) : String :=
  tenantID ++ "|" ++ uid ++ "|" ++ toString (eventTime / second)

def hasSent (sent : Marks) (tenantID uid : String) (eventTime now : Int) : Bool :=
  match sent (sentKey tenantID uid eventTime) with
  | none => false
  | some at' => now - at' < echoWindow

def suppressMin : Int := minute

def suppressMax : Int := 10 * minute

def nodeKey (id : String) : String :=
  let k := f.toLower (trimSpace id)
  let k := trimStart k "meshsat-device-"
  let k := trimStart k "meshsat-"
  trimStart k "!"

/-- A node has exported its own marker, which stays current until it is stale. -/
def mark (suppress : Marks) (tenantID uid : String) (stale now : Int) : Marks :=
  let node := nodeKey f uid
  if node = "" then suppress
  else update suppress (tenantID ++ "|" ++ node)
    (some (now + min (max (stale - now) suppressMin) suppressMax))

def suppressed (suppress : Marks) (tenantID deviceID : String) (now : Int) : Bool :=
  let node := nodeKey f deviceID
  if node = "" then false
  else
    match suppress (tenantID ++ "|" ++ node) with
    | none => false
    | some until' => now < until'

def presenceTTL : Int := 3 * minute

def touch (present : List (String × Int)) (tenantID : String) (now : Int) :
    List (String × Int) × Bool :=
  ((tenantID, now) :: present.filter fun p => p.1 != tenantID,
    match present.lookup tenantID with
    | none => true
    | some at' => presenceTTL < now - at')

/-- The bridge that last exported a crew's position. -/
structure Crew where
  tenantID : String
  uid : String
  bridgeID : String
  callsign : String
  seen : Int

/-- `upstream` is what the tenant's servers have shown as their own users. -/
structure Owners where
  crews : List Crew
  upstream : String → String → Option Int
  changed : String → Bool
  lastRelay : String → Int
  loaded : String → Bool

def Owners.empty : Owners :=
  ⟨[], fun _ _ => none, fun _ => false, fun _ => zeroTime, fun _ => false⟩

def ownerSticky : Int := 3 * minute

def ownerFresh : Int := 24 * 60 * minute

def upstreamSeenFor : Int := 24 * 60 * minute

def relayEvery : Int := 10 * minute

variable (o : Owners)

namespace Owners

def crew (tenantID uid : String) : Option Crew :=
  o.crews.find? fun c => c.tenantID == tenantID && c.uid == uid

def setCrew (c : Crew) : List Crew :=
  c :: o.crews.filter fun d => !(d.tenantID == c.tenantID && d.uid == c.uid)

def seenUpstream (tenantID key : String) (now : Int) : Bool :=
  match o.upstream tenantID key with
  | none => false
  | some at' => at' != zeroTime && now - at' < upstreamSeenFor

def observe (tenantID bridgeID uid callsign : String) (now : Int) : Owners × Bool :=
  if uid = "" ∨ callsign = "" then (o, false)
  else if o.seenUpstream tenantID uid now || o.seenUpstream tenantID ("cs:" ++ callsign) now then
    (o, false)
  else
    let taken := { o with crews := o.setCrew ⟨tenantID, uid, bridgeID, callsign, now⟩ }
    match o.crew tenantID uid with
    | none => ({ taken with changed := update o.changed tenantID true }, true)
    | some cur =>
      if cur.bridgeID ≠ bridgeID ∧ now - cur.seen < ownerSticky then (o, false)
      else if cur.bridgeID ≠ bridgeID ∨ cur.callsign ≠ callsign then
        ({ taken with changed := update o.changed tenantID true }, true)
      else (taken, true)

/-- A server has shown a user of its own, who is nobody's crew from then on. -/
def noteUpstream (tenantID uid callsign : String) (now : Int) : Owners :=
  let o := if uid = "" then o
    else
      let shown := { o with
        upstream := update o.upstream tenantID
          (update (o.upstream tenantID) uid (some now)) }
      if (o.crew tenantID uid).isNone then shown
      else { shown with
        crews := o.crews.filter fun d => !(d.tenantID == tenantID && d.uid == uid)
        changed := update o.changed tenantID true }
  if callsign = "" then o
  else { o with
    upstream := update o.upstream tenantID
      (update (o.upstream tenantID) ("cs:" ++ callsign) (some now)) }

variable (tenantID : String)

def owner (d : Dest) (now : Int) : Option String :=
  if d.uid ≠ "" then
    ((o.crew tenantID d.uid).filter fun c => now - c.seen < ownerFresh).map (·.bridgeID)
  else if d.callsign = "" then none
  else if o.seenUpstream tenantID ("cs:" ++ d.callsign) now then none
  else
    match o.crews.filter fun c =>
      c.tenantID == tenantID && c.callsign == d.callsign && now - c.seen < ownerFresh with
    | [c] => some c.bridgeID
    | _ => none

def relayDue (now : Int) : Owners × Bool :=
  if !o.changed tenantID && now - o.lastRelay tenantID < relayEvery then (o, false)
  else
    ({ o with
      changed := update o.changed tenantID false
      lastRelay := update o.lastRelay tenantID now }, true)

def load (contacts : List Contact) : Owners :=
  contacts.foldl
    (fun o c =>
      if (o.crew tenantID c.uid).isSome ∨ c.uid = "" ∨ c.bridgeID = "" then o
      else { o with
        crews := o.setCrew ⟨tenantID, c.uid, c.bridgeID, c.callsign, c.lastSeen⟩
        changed := update o.changed tenantID true })
    { o with loaded := update o.loaded tenantID true }

def prune (now : Int) : Owners :=
  { o with
    crews := o.crews.filter fun c => now - c.seen < ownerFresh
    changed := fun tenantID => o.changed tenantID ||
      o.crews.any fun c => c.tenantID == tenantID && !(now - c.seen < ownerFresh)
    upstream := fun tenantID key => (o.upstream tenantID key).filter fun at' =>
      at' != zeroTime && now - at' < upstreamSeenFor }

end Owners

def selfBridgeUID (uid : String) : Option String :=
  if startsWith uid "MESHSAT-" ∧ trimStart uid "MESHSAT-" ≠ "" then
    some (trimStart uid "MESHSAT-")
  else none

end MeshsatHub.Takhosted
