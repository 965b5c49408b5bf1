import MeshsatHub.Escalation.Engine
import MeshsatHub.Foundations.Numerals

/-!
# SOS runs

One SOS that a bridge raises under its own identity. Starts and cancels are applied to the run's row
in one transaction each, which also notes that alert work is owed; the work raises or closes the
alert and then clears the note, if no event has come in meanwhile. The rule an `sos_id` has to meet
is a parameter. A `Reconcile` that does not come to this run is a listing that fails.
-/

namespace MeshsatHub.Sos
open Interleaving Numerals

inductive Bearer where
  | mqtt
  | sbd
  | imt
  | sms
  | hub
  deriving DecidableEq

def Bearer.text : Bearer → String
  | .mqtt => "mqtt"
  | .sbd => "sbd"
  | .imt => "imt"
  | .sms => "sms"
  | .hub => "hub"

inductive EventKind where
  | start
  | cancel

inductive RunState where
  | active
  | cancelled
  deriving DecidableEq

/-- What a start says. -/
structure Content where
  deviceID : String
  text : String
  lat : UInt64
  lon : UInt64
  hasPosition : Bool

structure SOSRun where
  tenantID : String
  origin : String
  sosID : String
  bridgeID : String
  runStartMs : Int
  state : RunState
  rev : Nat
  bearers : List Bearer
  content : Content
  alertID : String
  alertPending : Bool
  startedAt : Option Int
  cancelledAt : Option Int
  cancelledBy : String
  cancelReason : Int
  createdAt : Int
  updatedAt : Int

structure SOSRunEvent where
  tenantID : String
  origin : String
  sosID : String
  bridgeID : String
  runStartMs : Int
  kind : EventKind
  bearer : Bearer
  content : Content
  who : String
  reason : Int
  time : Int

def addSOSBearer (list : List Bearer) (bearer : Bearer) : List Bearer :=
  if bearer ∈ list then list else list ++ [bearer]

def newSOSRun (ev : SOSRunEvent) : SOSRun :=
  { tenantID := ev.tenantID
    origin := ev.origin
    sosID := ev.sosID
    bridgeID := ev.bridgeID
    runStartMs := ev.runStartMs
    state := match ev.kind with
      | .start => .active
      | .cancel => .cancelled
    rev := 1
    bearers := addSOSBearer [] ev.bearer
    content := match ev.kind with
      | .start => ev.content
      | .cancel => ⟨"", "", 0, 0, false⟩
    alertID := ""
    alertPending := true
    startedAt := match ev.kind with
      | .start => some ev.time
      | .cancel => none
    cancelledAt := match ev.kind with
      | .start => none
      | .cancel => some ev.time
    cancelledBy := match ev.kind with
      | .start => ""
      | .cancel => ev.who
    cancelReason := match ev.kind with
      | .start => -1
      | .cancel => ev.reason
    createdAt := ev.time
    updatedAt := ev.time }

def applySOSEvent (r : SOSRun) (ev : SOSRunEvent) : SOSRun :=
  let counted :=
    { r with rev := r.rev + 1, bearers := addSOSBearer r.bearers ev.bearer, updatedAt := ev.time }
  match ev.kind with
  | .start =>
    if r.startedAt = none then { counted with startedAt := some ev.time, content := ev.content }
    else counted
  | .cancel =>
    match r.state with
    | .active =>
      { counted with
        state := .cancelled
        cancelledAt := some ev.time
        cancelledBy := ev.who
        cancelReason := ev.reason
        alertPending := true }
    | .cancelled => counted

/-- One transaction: the insert, or the update of the row that is there. -/
def applySOSRunEvent (row : Option SOSRun) (ev : SOSRunEvent) : SOSRun :=
  match row with
  | none => newSOSRun ev
  | some r => applySOSEvent r ev

def setSOSRunAlert (r : SOSRun) (alertID : String) (now : Int) : SOSRun :=
  { r with alertID := alertID, updatedAt := now }

/-- Guarded by the revision the work was done for. -/
def clearSOSRunAlertPending (r : SOSRun) (rev : Nat) : SOSRun :=
  if r.rev = rev then { r with alertPending := false } else r

structure Service where
  engine : Escalation.Engine
  chain : String
  configured : chain ≠ ""
  sha256 : List UInt8 → List UInt8
  sosIDValid : String → String → Int → Bool

structure RunKey where
  tenantID : String
  origin : String
  sosID : String

/-- An event as an ingress has authenticated it. -/
structure Incoming where
  tenantID : String
  bridgeID : String
  bearer : Bearer
  kind : EventKind
  sosID : String
  runStartMs : Int
  content : Content
  reason : Int
  who : String

def origin (bridgeID : String) : String := "bridge:" ++ bridgeID

variable (v : Service)

def alertID (tenantID origin sosID : String) : String :=
  let digest := v.sha256 (tenantID ++ "\x00" ++ origin ++ "\x00" ++ sosID).toUTF8.data.toList
  "sos-" ++ String.ofList ((digest.take 20).flatMap fun x => fixedWidth 16 Nat.digitChar 2 x.toNat)

def RunKey.alertID (k : RunKey) : String := Sos.alertID v k.tenantID k.origin k.sosID

variable (run : SOSRun)

def alertFor : Escalation.Alert :=
  let subject :=
    if run.content.deviceID = "" ∨ run.content.deviceID = "bridge" then run.bridgeID
    else run.content.deviceID
  let text :=
    if run.content.text = "" then
      "SOS from bridge " ++ run.bridgeID ++ " via " ++ ",".intercalate (run.bearers.map Bearer.text)
    else run.content.text
  { id := alertID v run.tenantID run.origin run.sosID
    tenantID := ""
    chainID := v.chain
    deviceIMEI := subject
    type := "sos"
    detail := text
    state := .triggered
    currentTier := 0
    retries := 0
    ackedBy := ""
    ackedAt := none
    nextEscAt := 0
    createdAt := 0
    updatedAt := 0 }

def Incoming.event (ev : Incoming) (origin : String) (now : Int) : SOSRunEvent :=
  { tenantID := ev.tenantID
    origin := origin
    sosID := ev.sosID
    bridgeID := ev.bridgeID
    runStartMs := ev.runStartMs
    kind := ev.kind
    bearer := ev.bearer
    content := ev.content
    who := if ev.who = "" then origin else ev.who
    reason := ev.reason
    time := now }

/-- What a call of the engine is made for. -/
inductive Purpose where
  | raising (run : SOSRun)
  | closing (run : SOSRun)
  | other

/-- Where a call stands; `run` is the row as the call has it. -/
inductive Call where
  | applying (ev : Incoming) (attempts : Nat)
  | finding (user : String)
  | listing
  | engine (purpose : Purpose) (c : Escalation.Call)
  | recording (run : SOSRun)
  | rereading (run : SOSRun)
  | clearing (run : SOSRun)
  | returned

inductive Request where
  | apply (ev : Incoming)
  | cancel (user : String)
  | reconcile
  | pageUnstored (ev : Incoming) (now : Int)
  | acknowledge (who : String)
  | processAlerts

structure Store where
  run : Option SOSRun
  engine : Escalation.Store

def Purpose.resume : Purpose → Escalation.Call → Call
  | .raising run, .returned (some _) => .recording run
  | .closing run, .returned (some _) => .clearing run
  | _, .returned _ => .returned
  | purpose, c => .engine purpose c

/-- The alert of a cancelled run is closed; `settled` is the run whose work this is. -/
def closeAlert (settled run : SOSRun) : Call :=
  let who := if run.cancelledBy = "" then run.origin else run.cancelledBy
  (Purpose.closing settled).resume
    (Escalation.Request.close run.tenantID (alertFor v run) who).begin

def raise : Call :=
  if v.chain = "" then .clearing run
  else (Purpose.raising run).resume
    (Escalation.Request.triggerOnce run.tenantID (alertFor v run)).begin

def settle : Call :=
  match run.state with
  | .cancelled => closeAlert v run run
  | .active => raise v run

/-- An event is taken if it names the run, and then it is this run's or another one's. -/
def RunKey.names (k : RunKey) (ev : Incoming) : Bool :=
  ev.tenantID == k.tenantID && Sos.origin ev.bridgeID == k.origin && ev.sosID == k.sosID

def Incoming.valid (ev : Incoming) : Bool :=
  ev.tenantID != "" && ev.bridgeID != "" && v.sosIDValid ev.sosID ev.bridgeID ev.runStartMs

/-- The attempts of `RetryShort`. -/
def retryAttempts : Nat := 3

variable (k : RunKey)

def Request.begin : Request → Option Call
  | .apply ev => if k.names ev && ev.valid v then some (.applying ev (retryAttempts - 1)) else none
  | .cancel user => some (.finding user)
  | .reconcile => some .listing
  | .pageUnstored ev now =>
    if k.names ev then
      if v.chain = "" then some .returned
      else
        let run := newSOSRun { ev.event (origin ev.bridgeID) now with kind := .start }
        some (.engine .other
          (Escalation.Request.triggerOnce ev.tenantID (alertFor v run)).begin)
    else none
  | .acknowledge who =>
    some (.engine .other (Escalation.Request.acknowledge k.tenantID (k.alertID v) who).begin)
  | .processAlerts => some (.engine .other Escalation.Request.processAlerts.begin)

def operatorCancel (user : String) : Incoming :=
  { tenantID := run.tenantID
    bridgeID := run.bridgeID
    bearer := .hub
    kind := .cancel
    sosID := run.sosID
    runStartMs := run.runStartMs
    content := ⟨"", "", 0, 0, false⟩
    reason := 0
    who := "user:" ++ user }

def perform (g : Store) (c : Call) (op : Escalation.Op) : Option (Store × Call) :=
  match c with
  | .applying ev attempts =>
    let run := applySOSRunEvent g.run (ev.event k.origin op.now)
    let after : Store := { g with run := op.writes g.run (some run) }
    if op.outcome.ok then some (after, if run.alertPending then settle v run else .returned)
    else
      some (after, match attempts with
        | 0 => .returned
        | n + 1 => .applying ev n)
  | .finding user =>
    match op.reads g.run with
    | some run => some (g, .applying (operatorCancel run user) (retryAttempts - 1))
    | none => some (g, .returned)
  | .listing =>
    match op.reads (g.run.filter (·.alertPending)) with
    | some run => some (g, settle v run)
    | none => some (g, .returned)
  | .engine purpose c =>
    (Escalation.perform v.engine g.engine c op).map fun answer =>
      ({ g with engine := answer.1 }, purpose.resume answer.2)
  | .recording run =>
    let written := g.run.map fun r => setSOSRunAlert r (k.alertID v) op.now
    some ({ g with run := op.writes g.run written },
      if op.outcome.ok && g.run.isSome then .rereading run else .returned)
  | .rereading run =>
    match op.reads g.run with
    | some now =>
      some (g, match now.state with
        | .cancelled => closeAlert v run now
        | .active => .clearing run)
    | none => some (g, .returned)
  | .clearing run =>
    let cleared := g.run.map fun r => clearSOSRunAlertPending r run.rev
    some ({ g with run := op.writes g.run cleared }, .returned)
  | .returned => none

def program : Program Store Call Request Escalation.Op :=
  ⟨fun g request => (request.begin v k).map fun c => (g, c), perform v k⟩

def initial : System Store Call := ⟨⟨none, ⟨Tables.Table.empty, []⟩⟩, []⟩

end MeshsatHub.Sos
