import Mathlib
import MeshsatHub.Topics.Attribution

/-!
# What a published message becomes

Three consumers of device topics decide on their own under which tenant they act: the SOS detector
and the message and position subscribers. All replicas receive every message. A consumer makes a
`Job` out of topic and payload; `Record` is what it leaves behind. `keys` holds the primary keys of
the two tables and the claimed keys, none of which includes the tenant. Decoding, `strings.ToUpper`
and the digest are parameters.
-/

namespace MeshsatHub.Tenancy
open Strings Topics List

/-- The fields of a decoded message the SOS detector reads. -/
structure MODecodedMsg where
  id : String
  imei : String
  text : String
  sos : Option Bool
  deriving DecidableEq

/-- The fields of a decoded message the message subscriber reads. -/
structure MODecodedPayload where
  id : String
  imei : String
  deviceGUID : String
  momsn : Int
  channel : String
  text : String
  raw : String
  compressed : Bool
  lat : Rat
  lon : Rat

structure PositionPayload where
  lat : Rat
  lon : Rat
  alt : Rat
  speed : Rat
  heading : Rat
  sats : Int
  cep : Rat
  source : String
  timestamp : String
  raw : String

/-- A decoded compact frame; what the frame does not carry is `none`. -/
structure GPSPosition where
  lat : Rat
  lon : Rat
  alt : Option Rat
  speed : Option Rat
  heading : Option Rat
  sats : Option Int
  timestamp : Option String

structure SOSEvent where
  imei : String
  text : String
  keyword : String
  source : String
  deriving DecidableEq

structure Alert where
  chainID : String
  deviceIMEI : String
  type : String
  detail : String
  deriving DecidableEq

structure Message where
  id : String
  deviceIMEI : String
  direction : String
  channel : String
  momsn : Int
  text : String
  rawHex : String
  compressed : Bool
  status : String
  lat : Rat
  lon : Rat
  deriving DecidableEq

structure Position where
  id : String
  deviceIMEI : String
  lat : Rat
  lon : Rat
  alt : Rat
  speed : Rat
  heading : Rat
  sats : Int
  source : String
  cep : Rat
  deriving DecidableEq

structure Consumers (P : Type) where
  decodeSOS : P → Option MODecodedMsg
  decodeMessage : P → Option MODecodedPayload
  decodePosition : P → Option PositionPayload
  /-- The compact frame, given the position before it for delta frames. -/
  decodeGPS : String → Option Position → Option GPSPosition
  toUpper : String → String
  messageDigest : String → P → String
  engine : Bool
  chainID : String
  listEscalationChains : String → List String

/-- Everything a consumer leaves behind, with the tenant it acted under. -/
inductive Record where
  | sosEvent (tenant topic : String) (event : SOSEvent)
  | alert (tenant : String) (alert : Alert)
  | message (tenant : String) (row : Message)
  | position (tenant : String) (row : Position)
  /-- The device's last sight, dead man's switch and fences after a position. -/
  | checkIn (tenant device : String) (lat lon : Rat) (timestamp : String)
  deriving DecidableEq

def Record.tenant : Record → String
  | .sosEvent tenant _ _ => tenant
  | .alert tenant _ => tenant
  | .message tenant _ => tenant
  | .position tenant _ => tenant
  | .checkIn tenant _ _ _ _ => tenant

/-- A primary key of the store. -/
inductive Slot where
  | claim (key : String)
  | message (id : String)
  | position (id : String)
  deriving DecidableEq

/-- The replicas' resolvers and the shared store. -/
structure Hub where
  resolvers : Nat → Resolver
  keys : List Slot
  records : List Record

def Hub.recordsOf (h : Hub) (tenant : String) : List Record :=
  h.records.filter fun r => r.tenant = tenant

def Hub.latestPosition (h : Hub) (tenant device : String) : Option Position :=
  ((h.recordsOf tenant).filterMap fun
    | .position _ row => if row.deviceIMEI = device then some row else none
    | _ => none).getLast?

def Hub.add (h : Hub) (added : List Record) : Hub := { h with records := h.records ++ added }

/-- `ON CONFLICT DO NOTHING`, with what follows a row that was inserted. -/
def Hub.once (h : Hub) (slot : Slot) (added : List Record) : Hub :=
  if slot ∈ h.keys then h else { h.add added with keys := slot :: h.keys }

section

def sosKeywords : List String := ["SOS", "MAYDAY", "EMERGENCY"]

/-- The keyword found and where the SOS was seen, if it was. The explicit field
comes first. -/
def detectSOS (toUpper : String → String) (msg : MODecodedMsg) : Option (String × String) :=
  if msg.sos = some true then some ("", "field")
  else
    (sosKeywords.find? fun kw => kw.toList <:+: (toUpper msg.text).toList).map (·, "keyword")

def sosBearer (s : String) : Bool :=
  s ≠ "" && s.toList.all fun c => ('a' ≤ c && c ≤ 'z') || ('0' ≤ c && c ≤ '9') || c = '_'

def decimal (s : String) : Bool := s ≠ "" && s.toList.all fun c => '0' ≤ c && c ≤ '9'

/-- The parts of `sos-{bearer}-{bridge}-{start}` and of its cancellation: the
bridge may contain dashes, the bearer and the start do not. -/
def matchBridgeSOSID (id : String) : Option (String × String × String) :=
  match split '-' id with
  | sos :: bearer :: rest =>
    let (rest, cancelled) :=
      if rest.getLast? = some "cancelled" then (rest.dropLast, "-cancelled") else (rest, "")
    let bridge := joinWith "-" rest.dropLast
    match rest.getLast? with
    | some start =>
      if sos = "sos" ∧ sosBearer bearer ∧ bridge ≠ "" ∧ Lacks '\n' bridge ∧ decimal start then
        some (bridge, start, cancelled)
      else none
    | none => none
  | _ => none

def sosClaimKey (id : String) : String :=
  match matchBridgeSOSID id with
  | some (bridge, start, cancelled) => "sos-" ++ bridge ++ "-" ++ start ++ cancelled
  | none => id

variable {P : Type}

/-- What a consumer does with a message once its tenant is known. -/
inductive Job where
  | sos (msgID : String) (event : SOSEvent)
  | message (row : Message)
  | position (id device : String) (payload : PositionPayload)

/-- The identifier whose owner decides the tenant. -/
def Job.device : Job → String
  | .sos _ event => event.imei
  | .message row => row.deviceIMEI
  | .position _ device _ => device

variable (c : Consumers P) (topic : String) (payload : P)

def fallbackMessageID : String :=
  "mo-" ++ c.messageDigest topic payload

def fallbackPositionID : String :=
  "pos-" ++ c.messageDigest topic payload

def sosJob : Option Job := do
  let msg ← c.decodeSOS payload
  let imei := if msg.imei = "" then extractDeviceID topic else msg.imei
  if imei = "" then none
  else
    let (keyword, source) ← detectSOS c.toUpper msg
    some (.sos (if msg.id = "" then fallbackMessageID c topic payload else msg.id)
      ⟨imei, msg.text, keyword, source⟩)

def messageJob : Option Job :=
  if extractDeviceID topic = "" then none
  else
    (c.decodeMessage payload).map fun msg =>
      .message
        { id := if msg.id = "" then fallbackMessageID c topic payload else msg.id
          deviceIMEI :=
            if msg.imei ≠ "" then msg.imei
            else if msg.deviceGUID ≠ "" then msg.deviceGUID
            else extractDeviceID topic
          direction := "mo"
          channel := msg.channel
          momsn := msg.momsn
          text := msg.text
          rawHex := msg.raw
          compressed := msg.compressed
          status := "received"
          lat := msg.lat
          lon := msg.lon }

def positionJob : Option Job :=
  if extractDeviceID topic = "" then none
  else
    (c.decodePosition payload).map fun msg =>
      .position (fallbackPositionID c topic payload) (extractDeviceID topic) msg

variable (tenant : String)

def resolveChainID : Option String :=
  if c.chainID ≠ "" ∧ tenant = defaultTenant then some c.chainID
  else
    match c.listEscalationChains tenant with
    | [] => none
    | chain :: _ => if chain = "" then none else some chain

def sosRecords (event : SOSEvent) : List Record :=
  .sosEvent tenant (topicSOSFor tenant event.imei) event ::
    match if c.engine then resolveChainID c tenant else none with
    | some chain => [.alert tenant ⟨chain, event.imei, "sos", event.text⟩]
    | none => []

/-- The fields of a compact frame replace those of the payload. -/
def mergeGPS (msg : PositionPayload) (gps : Option GPSPosition) : PositionPayload :=
  match gps with
  | none => msg
  | some g =>
    { msg with
      lat := g.lat
      lon := g.lon
      alt := g.alt.getD msg.alt
      speed := g.speed.getD msg.speed
      heading := g.heading.getD msg.heading
      sats := g.sats.getD msg.sats
      timestamp := g.timestamp.getD msg.timestamp }

def reportedPosition (payload : PositionPayload) (prev : Option Position) :
    Option PositionPayload :=
  let msg := mergeGPS payload (if payload.raw = "" then none else c.decodeGPS payload.raw prev)
  if msg.lat = 0 ∧ msg.lon = 0 then none
  else some { msg with source := if msg.source = "" then "gps" else msg.source }

def positionRow (id device : String) (msg : PositionPayload) : Position where
  id := id
  deviceIMEI := device
  lat := msg.lat
  lon := msg.lon
  alt := msg.alt
  speed := msg.speed
  heading := msg.heading
  sats := msg.sats
  source := msg.source
  cep := msg.cep

def Job.slot : Job → Slot
  | .sos msgID _ => .claim ("sos:" ++ tenant ++ ":" ++ sosClaimKey msgID)
  | .message row => .message row.id
  | .position id _ _ => .position id

def Job.act (h : Hub) (job : Job) : Hub :=
  match job with
  | .sos _ event => h.once (job.slot tenant) (sosRecords c tenant event)
  | .message row => h.once (job.slot tenant) [.message tenant row]
  | .position id device payload =>
    match reportedPosition c payload (h.latestPosition tenant device) with
    | none => h
    | some msg =>
      (h.once (job.slot tenant) [.position tenant (positionRow id device msg)]).add
        [.checkIn tenant device msg.lat msg.lon msg.timestamp]

inductive Consumer where
  | sos
  | message
  | position
  deriving DecidableEq

/-- A level filter: `+` takes any one level. -/
def levelsMatch : List String → List String → Bool
  | [], [] => true
  | f :: fs, t :: ts => (f = "+" || f = t) && levelsMatch fs ts
  | _, _ => false

def Consumer.filters : Consumer → List String
  | .sos | .message => dualFilters "meshsat/+/mo/decoded"
  | .position => dualFilters "meshsat/+/position"

def Consumer.receives (k : Consumer) (topic : String) : Bool :=
  k.filters.any fun f => levelsMatch (split '/' f) (split '/' topic)

def Consumer.job (k : Consumer) (c : Consumers P) (topic : String) (payload : P) : Option Job :=
  if k.receives topic then
    match k with
    | .sos => sosJob c topic payload
    | .message => messageJob c topic payload
    | .position => positionJob c topic payload
  else none

/-- One message handed to one consumer of one replica. The sender is the tenant
of the bridge that published it. -/
structure Delivery (P : Type) where
  sender : String
  replica : Nat
  now : Nat
  consumer : Consumer
  topic : String
  payload : P
  deriving DecidableEq

def Delivery.job (d : Delivery P) (c : Consumers P) : Option Job :=
  d.consumer.job c d.topic d.payload

def deliver (reg : Registry) (h : Hub) (d : Delivery P) : Hub :=
  match d.job c with
  | none => h
  | some job =>
    let resolved := forDeviceTopic (h.resolvers d.replica) (reg.env d.now) job.device
      (extractTenantID d.topic)
    job.act c resolved.1 { h with resolvers := Function.update h.resolvers d.replica resolved.2 }

def deliverAll (reg : Registry) (h : Hub) (run : List (Delivery P)) : Hub :=
  run.foldl (deliver c reg) h

variable (h : Hub) (slot : Slot) (added : List Record) {key : Slot}

namespace Hub

@[simp] theorem once_resolvers : (h.once slot added).resolvers = h.resolvers := by
  unfold once
  split <;> rfl

theorem mem_keys_once : key ∈ (h.once slot added).keys ↔ key = slot ∨ key ∈ h.keys := by
  unfold once
  split
  · next hmem =>
    constructor
    · exact Or.inr
    · rintro (rfl | hkey)
      · exact hmem
      · exact hkey
  · exact mem_cons

theorem once_records :
    (h.once slot added).records = h.records ++ if slot ∈ h.keys then [] else added := by
  unfold once
  split
  · simp
  · rfl

theorem recordsOf_append {h h' : Hub} {added : List Record}
    (hrecords : h'.records = h.records ++ added) (tenant : String) :
    h'.recordsOf tenant = h.recordsOf tenant ++ added.filter fun r => r.tenant = tenant := by
  simp [recordsOf, hrecords]

theorem recordsOf_add (tenant : String) : (h.add added).recordsOf tenant =
      h.recordsOf tenant ++ added.filter fun r => r.tenant = tenant :=
  recordsOf_append rfl tenant

theorem recordsOf_once (tenant : String) : (h.once slot added).recordsOf tenant =
      h.recordsOf tenant ++
        (if slot ∈ h.keys then [] else added).filter fun r => r.tenant = tenant :=
  recordsOf_append (once_records h slot added) tenant

end Hub

end

variable {P : Type} (c : Consumers P) (tenant : String) (h : Hub) (job : Job)

theorem Job.act_resolvers : (job.act c tenant h).resolvers = h.resolvers := by
  cases job with
  | sos msgID event | message row => exact Hub.once_resolvers _ _ _
  | position id device payload =>
    simp only [Job.act]
    split
    · rfl
    · exact Hub.once_resolvers _ _ _

theorem sosRecords_tenant (event : SOSEvent) :
    ∀ r ∈ sosRecords c tenant event, r.tenant = tenant := by
  unfold sosRecords
  split <;> simp [Record.tenant]

theorem Job.act_records : ∃ added, (job.act c tenant h).records = h.records ++ added ∧
      ∀ r ∈ added, r.tenant = tenant := by
  have honce (slot : Slot) (added : List Record) (htenant : ∀ r ∈ added, r.tenant = tenant) :
      ∃ new, (h.once slot added).records = h.records ++ new ∧ ∀ r ∈ new, r.tenant = tenant := by
    refine ⟨_, Hub.once_records h slot added, ?_⟩
    split
    · simp
    · exact htenant
  cases job with
  | sos msgID event => exact honce _ _ (sosRecords_tenant c tenant event)
  | message row => exact honce _ [.message tenant row] (by simp [Record.tenant])
  | position id device payload =>
    simp only [Job.act]
    split
    · exact ⟨[], by simp, by simp⟩
    · next msg _ =>
      obtain ⟨new, hnew, htenant⟩ := honce (.position id)
        [.position tenant (positionRow id device msg)] (by simp [Record.tenant])
      refine ⟨new ++ [.checkIn tenant device msg.lat msg.lon msg.timestamp], ?_, ?_⟩
      · simp only [Hub.add, Job.slot, hnew, append_assoc]
      · intro r hr
        obtain hr | hr := mem_append.1 hr
        · exact htenant r hr
        · rw [mem_singleton.1 hr]
          rfl

theorem Job.mem_keys_act (hne : key ≠ job.slot tenant) :
    key ∈ (job.act c tenant h).keys ↔ key ∈ h.keys := by
  have honce (added : List Record) :
      key ∈ (h.once (job.slot tenant) added).keys ↔ key ∈ h.keys := by
    rw [Hub.mem_keys_once, or_iff_right hne]
  cases job with
  | sos msgID event | message row => exact honce _
  | position id device payload =>
    simp only [Job.act]
    split
    · exact Iff.rfl
    · exact honce _

theorem Job.slot_mem_keys_act (hjob : ∀ id device payload, job ≠ .position id device payload) :
    job.slot tenant ∈ (job.act c tenant h).keys := by
  cases job with
  | sos msgID event | message row => exact (Hub.mem_keys_once _ _ _).2 (Or.inl rfl)
  | position id device payload => exact absurd rfl (hjob id device payload)

theorem Job.act_congr {h₁ h₂ : Hub} (hkey : job.slot tenant ∈ h₁.keys ↔ job.slot tenant ∈ h₂.keys)
    (hrecords : h₁.recordsOf tenant = h₂.recordsOf tenant) :
    (job.act c tenant h₁).recordsOf tenant = (job.act c tenant h₂).recordsOf tenant ∧
      (job.slot tenant ∈ (job.act c tenant h₁).keys ↔
        job.slot tenant ∈ (job.act c tenant h₂).keys) := by
  have honce (added : List Record) : (h₁.once (job.slot tenant) added).recordsOf tenant =
        (h₂.once (job.slot tenant) added).recordsOf tenant := by
    simp only [Hub.recordsOf_once, hrecords, hkey]
  have hkeys (added : List Record) : job.slot tenant ∈ (h₁.once (job.slot tenant) added).keys ↔
        job.slot tenant ∈ (h₂.once (job.slot tenant) added).keys := by
    simp only [Hub.mem_keys_once, true_or]
  cases job with
  | sos msgID event | message row => exact ⟨honce _, hkeys _⟩
  | position id device payload =>
    have hlatest : h₁.latestPosition tenant device = h₂.latestPosition tenant device := by
      simp only [Hub.latestPosition, hrecords]
    simp only [Job.act, hlatest]
    split
    · exact ⟨hrecords, hkey⟩
    · next msg _ =>
      refine ⟨?_, hkeys _⟩
      rw [Hub.recordsOf_add, Hub.recordsOf_add, honce]

end MeshsatHub.Tenancy
