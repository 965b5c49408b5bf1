import MeshsatHub.Takhosted.Memories

/-!
# Forwarding to the TAK servers

One tenure of the leader's forwarder. Messages of the bus wait in one bounded intake; the dispatcher
turns each into events for the servers of its tenant, and each server has a link with two queues.
The ticker may close any link that has nothing waiting. No step reads the log.
-/

namespace MeshsatHub.Takhosted
open Strings Topics Queues Function

/-- A message from the bus, by the order of arrival. -/
structure Message where
  number : Nat
  topic : String
  payload : Bytes

/-- What waits for the dispatcher: a message, or a tenant whose connections want opening. -/
inductive Inbound where
  | message (m : Message)
  | connect (tenantID : String)

structure PositionEvent where
  uid : String
  callsign : String
  lat : UInt64
  lon : UInt64
  alt : UInt64
  staleSec : Nat
  source : String
  deriving DecidableEq

/-- What is written to a server, with the message it comes from. -/
inductive Cargo where
  | report (number : Nat) (ev : PositionEvent)
  | event (number : Nat) (line : Bytes)
  | relay (tenantID : String) (now : Int)
  deriving DecidableEq

def Cargo.number : Cargo → Option Nat
  | .report n _ => some n
  | .event n _ => some n
  | .relay _ _ => none

structure Job where
  up : Upstream
  cargo : Cargo
  deriving DecidableEq

/-- A call of `enqueue` that is still to be made. -/
structure Placement where
  tenantID : String
  job : Job
  urgent : Bool
  deriving DecidableEq

def upstreamKey (tenantID : String) (up : Upstream) : String := tenantID ++ "|" ++ up.address

def Placement.key (p : Placement) : String := upstreamKey p.tenantID p.job.up

/-- One server's link; `looked` if it has just found no emergency waiting. -/
structure Link where
  routine : Queue Job
  urgent : Queue Job
  looked : Bool

def Link.empty : Link := ⟨Queue.empty, Queue.empty, false⟩

/-- What the dispatcher sees when it takes a message. -/
structure View where
  world : World
  asked : Int
  now : Int
  fresh : Bool

inductive Entry where
  | arrived (m : Message) (now : Int) (left : Bool)
  | taken (m : Message) (view : View)

structure State where
  arrivals : Nat
  limits : Limiter
  reg : Registrations
  intake : List Inbound
  suppress : Marks
  seen : Marks
  sent : Marks
  present : List (String × Int)
  owners : Owners
  links : String → Link
  dispatching : List Placement
  ticking : List Placement
  log : List Entry

def intakeQueue : Nat := 1024

def linkQueue : Nat := 256

def linkUrgentQueue : Nat := 32

def State.push (s : State) (m : Inbound) : State :=
  if s.intake.length < intakeQueue then { s with intake := s.intake ++ [m] } else s

/-- Whether an export is within its emergency budgets when it arrives. -/
def urgentLeft (l : Limiter) (topic : String) (now : Int) : Bool :=
  match parseTAKCotOut topic with
  | none => false
  | some (tenantID, _) => (l.takeUrgent topic tenantID now).2

/-- What the bus calls. -/
def receive (s : State) (topic : String) (payload : Bytes) (now : Int) : State :=
  let m : Message := ⟨s.arrivals, topic, payload⟩
  let s := { s with
    arrivals := s.arrivals + 1
    log := s.log ++ [.arrived m now (urgentLeft s.limits topic now)] }
  if endsWith topic cotOutSuffix then
    let (limits, ok) := admits s.limits topic payload now
    let s := { s with limits := limits }
    if ok then s.push (.message m) else s
  else if endsWith topic "/health" || endsWith topic "/birth" then
    match parseBridgeTopic topic with
    | none => s
    | some t =>
      if t.rest.length = 1 then
        let (present, hasCome) := touch s.present t.tenant now
        let s := { s with present := present }
        if hasCome then s.push (.connect t.tenant) else s
      else s
  else s.push (.message m)

variable (f : Forwarder)

def defaultStaleSec : Nat := 120

def positionEvent (w : World) (tenantID deviceID : String) (pos : Position) : PositionEvent :=
  ⟨"meshsat-device-" ++ deviceID, w.callsign tenantID deviceID, pos.lat, pos.lon, pos.alt,
    defaultStaleSec, pos.source⟩

variable (s : State) (w : World)

def onPosition (now : Int) (m : Message) : State :=
  match parseDeviceTopic m.topic with
  | none => s
  | some t =>
    if isHubMarkerUID t.device || suppressed f s.suppress t.tenant t.device now then s
    else
      match f.position m.payload with
      | none => s
      | some pos =>
        if isZero pos.lat && isZero pos.lon then s
        else if (w.upstreams t.tenant).isEmpty || w.isArtefact t.tenant t.device then s
        else
          let ev := positionEvent w t.tenant t.device pos
          { s with
            sent := update s.sent (sentKey t.tenant ev.uid now) (some now)
            dispatching := (w.upstreams t.tenant).map fun up =>
              ⟨t.tenant, ⟨up, .report m.number ev⟩, t.suffix == "sos"⟩ }

def sendRelay (o : Owners) (w : World) (tenantID : String) (now : Int) : Owners × List Placement :=
  if !f.chat then (o, [])
  else
    let (o, due) := o.relayDue tenantID now
    if !due then (o, [])
    else
      (o, ((w.upstreams tenantID).filter (·.isHosted)).map fun up =>
        ⟨tenantID, ⟨up, .relay tenantID now⟩, true⟩)

def isOtherBridge (reg : Registrations) (w : World) (asked : Int) (tenantID bridgeID uid : String) :
    Registrations × Bool :=
  match selfBridgeUID uid with
  | none => (reg, false)
  | some x =>
    if x = bridgeID then (reg, false)
    else
      let (reg, is) := bridgeRegistered reg w tenantID x asked
      (reg, is == Registration.yes)

def observeOwner (asked : Int) (tenantID bridgeID uid callsign : String) (seen : Int) : State :=
  let (reg, isOther) := isOtherBridge s.reg w asked tenantID bridgeID uid
  let s := { s with reg := reg }
  if isOther then s
  else
    let (owners, owns) := s.owners.observe tenantID bridgeID uid callsign seen
    let s := { s with owners := owners }
    if !owns || !f.chat then s
    else
      let (owners, frames) := sendRelay f s.owners w tenantID seen
      { s with owners := owners, dispatching := s.dispatching ++ frames }

/-- Whether an addressed event has a recipient that neither the Hub nor a client is. -/
def toServer (o : Owners) (tenantID : String) (dests : List Dest) (now : Int) : Bool :=
  dests.any fun d =>
    !startsWith d.uid operatorUIDPrefix && !(f.chat && (o.owner tenantID d now).isSome)

variable (tenantID : String)

def toUpstreams (m : Message) (line : Bytes) (mt : Meta) (now : Int) : State :=
  if (w.upstreams tenantID).isEmpty then s
  else
    { s with
      sent := update s.sent (sentKey tenantID mt.uid mt.time) (some now)
      dispatching := s.dispatching ++ (w.upstreams tenantID).map fun up =>
        ⟨tenantID, ⟨up, .event m.number (line ++ [10])⟩, mt.emergency⟩ }

variable (asked now : Int) (tenantID bridgeID : String)

/-- A position event from a node itself. -/
def noteExporter (mt : Meta) : State :=
  if startsWith mt.type "a-" then
    let s := { s with suppress := mark f s.suppress tenantID mt.uid mt.stale now }
    if mt.callsign = "" then s
    else
      let seen := if mt.time ≠ zeroTime ∧ mt.time < now then mt.time else now
      observeOwner f s w asked tenantID bridgeID mt.uid mt.callsign seen
  else s

def onCot (m : Message) : State :=
  let (reg, is) := bridgeRegistered s.reg w tenantID bridgeID asked
  let s := { s with reg := reg }
  if is ≠ .yes then s
  else
    match f.sanitize m.payload clientLimits now with
    | none => s
    | some (line, mt) =>
      if isControlType mt.type || isHubMarkerUID mt.uid ||
          (mt.isChat && isHubMarkerUID mt.sender) then s
      else if !isFirst f s.seen tenantID line now then s
      else
        let s := { s with seen := update s.seen (seenKey f tenantID line) (some now) }
        let s := noteExporter f s w asked now tenantID bridgeID mt
        if mt.addressees.isEmpty || toServer f s.owners tenantID mt.addressees now then
          toUpstreams s w tenantID m line mt now
        else s

def connectTenant : State :=
  if !f.chat || s.owners.loaded tenantID then s
  else
    match w.contacts tenantID with
    | none => s
    | some contacts => { s with owners := s.owners.load tenantID contacts }

/-- Whether an exported event is not a duplicate now. -/
def freshAt (now : Int) (m : Message) : Bool :=
  match parseTAKCotOut m.topic, f.sanitize m.payload clientLimits now with
  | some (tenantID, _), some (line, _) => isFirst f s.seen tenantID line now
  | _, _ => false

/-- The dispatcher takes what has waited longest, once it is done with the one before. -/
def dispatch : Option State :=
  if !s.dispatching.isEmpty then none
  else
    match s.intake with
    | [] => none
    | .connect tenantID :: rest => some (connectTenant f { s with intake := rest } w tenantID)
    | .message m :: rest =>
      let s' := { s with
        intake := rest
        log := s.log ++ [.taken m ⟨w, asked, now, freshAt f s now m⟩] }
      some <| match parseTAKCotOut m.topic with
        | some (tenantID, bridgeID) => onCot f s' w asked now tenantID bridgeID m
        | none => onPosition f s' w now m

/-- Hands one event to the link for one server. -/
def State.enqueue (p : Placement) : State :=
  let l := s.links p.key
  let l := if p.urgent then { l with urgent := l.urgent.offer linkUrgentQueue p.job }
    else { l with routine := l.routine.offer linkQueue p.job }
  { s with links := update s.links p.key l }

def onUpstream (up : Upstream) (frame : Bytes) (now : Int) : State :=
  let (limits, ok) :=
    s.limits.take ("u|" ++ upstreamKey tenantID up) upstreamRate upstreamBurst now
  let s := { s with limits := limits }
  if !ok then s
  else
    match f.sanitize frame upstreamLimits now with
    | none => s
    | some (line, mt) =>
      if isControlType mt.type || isHubMarkerUID mt.uid ||
          hasSent s.sent tenantID mt.uid mt.time now || !isFirst f s.seen tenantID line now then s
      else
        let s := { s with seen := update s.seen (seenKey f tenantID line) (some now) }
        if startsWith mt.type "a-" then
          { s with owners := s.owners.noteUpstream tenantID mt.uid mt.callsign now }
        else s

def visit (w : World) (now : Int) : List (String × Int) → State → State
  | [], s => s
  | (tenantID, _) :: rest, s =>
    let s := s.push (.connect tenantID)
    let (owners, frames) := sendRelay f s.owners w tenantID now
    visit w now rest { s with owners := owners, ticking := s.ticking ++ frames }

def tick (now : Int) : Option State :=
  if !s.ticking.isEmpty then none
  else
    let present := s.present.filter fun p => !(presenceTTL < now - p.2)
    some (visit f w now present
      { s with
        suppress := fun key => (s.suppress key).filter fun until' => now < until'
        seen := s.seen.prune dedupWindow now
        sent := s.sent.prune echoWindow now
        owners := s.owners.prune now
        limits := s.limits.prune now
        reg := fun key => (s.reg key).filter fun e => now < e.expiry
        present := present })

/-- Where a link looks when it has found no emergency. -/
inductive Pick where
  | urgent
  | routine
  | other

inductive Event where
  | receive (topic : String) (payload : Bytes) (now : Int)
  | dispatch (w : World) (asked now : Int)
  | place
  | placeRelay
  | look (key : String)
  | pick (key : String) (pick : Pick)
  | heard (tenantID : String) (up : Upstream) (frame : Bytes) (now : Int)
  | tick (w : World) (now : Int)
  | reap (key : String)

/-- A link writes what it is handed, emergencies first. -/
def Link.look (l : Link) : Option Link :=
  if l.looked then none
  else
    match l.urgent.take with
    | some urgent => some { l with urgent := urgent }
    | none => some { l with looked := true }

def Link.pick (l : Link) : Pick → Option Link
  | .urgent => if l.looked then l.urgent.take.map fun q => { l with urgent := q, looked := false }
      else none
  | .routine =>
    if l.looked then l.routine.take.map fun q => { l with routine := q, looked := false }
    else none
  | .other => if l.looked then some { l with looked := false } else none

def step : Event → Option State
  | .receive topic payload now => some (receive s topic payload now)
  | .dispatch w asked now => dispatch f s w asked now
  | .place =>
    match s.dispatching with
    | [] => none
    | p :: rest => some ({ s with dispatching := rest }.enqueue p)
  | .placeRelay =>
    match s.ticking with
    | [] => none
    | p :: rest => some ({ s with ticking := rest }.enqueue p)
  | .look key => (s.links key).look.map fun l => { s with links := update s.links key l }
  | .pick key pick =>
    ((s.links key).pick pick).map fun l => { s with links := update s.links key l }
  | .heard tenantID up frame now => some (onUpstream f s tenantID up frame now)
  | .tick w now => tick f s w now
  | .reap key =>
    if (s.links key).routine.waiting = [] ∧ (s.links key).urgent.waiting = [] then
      some { s with links := update s.links key { s.links key with looked := false } }
    else none

/-- The tenure begins; budgets and registrations are left from the ones before. -/
def initial (limits : Limiter) (reg : Registrations) : State where
  arrivals := 0
  limits := limits
  reg := reg
  intake := []
  suppress := fun _ => none
  seen := fun _ => none
  sent := fun _ => none
  present := []
  owners := Owners.empty
  links := fun _ => Link.empty
  dispatching := []
  ticking := []
  log := []

end MeshsatHub.Takhosted
