import MeshsatHub.Inbound.Surroundings

/-!
# The three webhook handlers

`internal/rockblock/handler.go`, `internal/cloudloop/webhook.go` with `lingo.go`, and
`internal/sms/webhook.go`, each as the procedure of the operations it asks for. A delivery has been
authenticated: `url` is the tenant whose own URL it arrived at, or empty for the platform's.
Everything is wired as in `cmd/hub/main.go`. Numbers in form fields are given parsed.
-/

namespace MeshsatHub.Inbound
open Egress Procedures Tenancy

inductive Answer where
  | missingIMEI
  | forbidden
  | invalidHex
  | errorDecode
  | duplicate
  | oobFrame
  | bridgeUplink
  | fragmentError
  | fragmentBuffered
  | missingField
  | twiml
  | ok
  deriving DecidableEq

abbrev Handler := Proc Op Op.Answer

namespace Ask

abbrev resolve (id auth : String) : Handler String := perform (Op.resolve id auth)

abbrev file (id auth : String) (effect : Effect) : Handler Unit := perform (Op.file id auth effect)

abbrev fileAs (tenant id : String) (effect : Effect) : Handler Unit :=
  perform (Op.fileAs tenant id effect)

abbrev isNew (key : String) : Handler Bool := perform (Op.isNew key)

abbrev handleInbound (bearer origin : String) (text : Bytes) : Handler Bool :=
  perform (Op.handleInbound bearer origin text)

abbrev claims (device : String) (data : Bytes) (mtu : Nat) : Handler Bool :=
  perform (Op.claims device data mtu)

abbrev addFragment (device : String) (data : Bytes) : Handler Added :=
  perform (Op.addFragment device data)

abbrev declaration (id auth : String) : Handler Declaration := perform (Op.declaration id auth)

abbrev takeSMS (tenant : String) (sms : LaneSMS) : Handler Bool := perform (Op.takeSMS tenant sms)

abbrev publishHub (payload : Payload) : Handler Unit := perform (Op.publishHub payload)

abbrev newID : Handler String := perform Op.newID

end Ask

def ownDevice (url imei : String) : Handler Bool :=
  if url = "" then pure true
  else do
    let owner ← Ask.resolve imei url
    pure (owner = url)

def handleBridgeSatUplink (auth bearer origin : String) (raw : Bytes) : Handler Bool :=
  if isBridgeSatUplink raw then do
    Ask.file origin auth (.frame bearer raw)
    pure true
  else pure false

/-- Nothing when the payload is no fragment, the message it completes, or the answer
to a fragment that does not complete one. -/
def reassemble (device : String) (raw : Bytes) (mtu : Nat) :
    Handler (Except Answer (Option Bytes)) := do
  let claimed ← Ask.claims device raw mtu
  if claimed then do
    let added ← Ask.addFragment device raw
    match added with
    | .failed => pure (.error .fragmentError)
    | .waiting => pure (.error .fragmentBuffered)
    | .whole data => pure (.ok (some data))
  else pure (.ok none)

/-- What the modem's bridge declared, asked only for a versioned payload that no
key of the Hub opened. -/
def declaration (auth imei : String) (u : Unwrapped) : Handler Declaration :=
  if u.version = 0 || u.encrypted then pure .undeclared
  else Ask.declaration imei auth

def MOMessage.row (m : MOMessage) : Message where
  id := m.id
  deviceIMEI := m.imei
  channel := "iridium"
  momsn := m.momsn
  text := m.text
  rawHex := m.raw
  compressed := m.compression ≠ .none
  status := "received"
  latitude := m.latitude
  longitude := m.longitude

def fileMO (auth : String) (m : MOMessage) (position : Option PositionMessage)
    (actor detail ip : String) : Handler Answer := do
  Ask.file m.imei auth (.publish .moDecoded (.decoded m))
  Ask.file m.imei auth (.publish .satMO (.decoded m))
  Ask.file m.imei auth (.insert m.row)
  match position with
  | some p => Ask.file m.imei auth (.publish .position (.position p))
  | none => pure ()
  Ask.file m.imei auth .checkIn
  Ask.file m.imei auth (.audit actor detail ip)
  pure .ok

/-- A fragment is answered; a payload or a completed message goes on. -/
def orAnswer (next : Option Bytes → Handler Answer) : Except Answer (Option Bytes) → Handler Answer
  | .error answer => pure answer
  | .ok whole => next whole

/-- A delivery of Ground Control. -/
structure RockblockForm where
  imei : String
  momsn : Int
  transmitTime : String
  iridiumLatitude : Float64
  iridiumLongitude : Float64
  iridiumCEP : Float64
  data : String
  remoteAddr : String

def sbdMessageID (imei : String) (momsn : Int) : String := "mo-" ++ imei ++ "-" ++ toString momsn

variable (k : Codecs)

namespace RockblockForm

variable (f : RockblockForm)

def dedupKey (raw : Bytes) : String :=
  f.imei ++ ":" ++ toString f.momsn ++ ":" ++ k.digest raw

def rawMessage (raw : Bytes) : RawMessage where
  imei := f.imei
  momsn := f.momsn
  raw := k.encodeBase64 raw
  transmitTime := f.transmitTime
  latitude := f.iridiumLatitude
  longitude := f.iridiumLongitude
  cep := f.iridiumCEP
  source := ""

def decoded (data : Bytes) (d : Declaration) : MOMessage :=
  let u := unwrap k f.imei data
  let isSealed := sealedForAnother k u.version u.encrypted u.payload d
  let text := readText k isSealed u.payload
  { id := sbdMessageID f.imei f.momsn
    imei := f.imei
    momsn := f.momsn
    text := text.1
    raw := k.encodeBase64 (if u.encrypted then u.payload else data)
    compression := text.2
    encrypted := u.encrypted
    transmitTime := f.transmitTime
    latitude := f.iridiumLatitude
    longitude := f.iridiumLongitude
    cep := f.iridiumCEP
    isOpaque := isSealed || text.1.length = 0
    wire := k.encodeBase64 data
    source := ""
    imtTopic := ""
    reticulum := false }

def position : Option PositionMessage :=
  if !isZero f.iridiumLatitude || !isZero f.iridiumLongitude then
    some ⟨f.iridiumLatitude, f.iridiumLongitude, f.iridiumCEP, "iridium_cep",
      if f.transmitTime = "" then .now else .given f.transmitTime⟩
  else none

variable (auth : String)

def process (data : Bytes) : Handler Answer := do
  let u := unwrap k f.imei data
  let d ← declaration auth f.imei u
  let detail := "imei=" ++ f.imei ++ " momsn=" ++ toString f.momsn ++ " bytes=" ++
    toString u.payload.length
  fileMO auth (f.decoded k data d) f.position "webhook" detail f.remoteAddr

variable (raw : Bytes)

/-- A management frame is text; other payloads are not asked about. -/
def manage : Handler Bool :=
  if isPrintableASCII raw then Ask.handleInbound "sbd" f.imei raw else pure false

/-- What is done with a payload that is new. -/
def receive : Handler Answer := do
  let managed ← f.manage raw
  if managed then pure .oobFrame
  else do
    let uplink ← handleBridgeSatUplink auth "sbd" f.imei raw
    if uplink then pure .bridgeUplink
    else do
      Ask.file f.imei auth (.publish .moRaw (.raw (f.rawMessage k raw)))
      let found ← reassemble f.imei raw iridiumMOMTU
      orAnswer (fun whole => f.process k auth (whole.getD raw)) found

/-- The receipt goes out before the duplicate check, so that a repeat confirms again. -/
def accept : Handler Answer := do
  Ask.file f.imei auth (.receipt f.momsn)
  let isNew ← Ask.isNew (f.dedupKey k raw)
  if isNew then f.receive k auth raw else pure .duplicate

/-- `ServeHTTP` after the delivery has been authenticated. -/
def serveHTTP (url : String) : Handler Answer :=
  if f.imei = "" then pure .missingIMEI
  else do
    let own ← ownDevice url f.imei
    if own then
      match k.decodeHex f.data with
      | none => pure .invalidHex
      | some raw => f.accept k (authTenant url) raw
    else pure .forbidden

end RockblockForm

structure LingoLocation where
  latitude : Float64
  longitude : Float64
  cep : Float64

structure LingoSBD where
  imei : String
  momsn : Int
  sessionAt : LingoTimestamp
  location : Option LingoLocation

/-- A delivery of Cloudloop: the hardware's IMEI, and the parts for the bearer it came over. -/
structure LingoMO where
  id : String
  receivedAt : LingoTimestamp
  hardwareIMEI : Option String
  sbd : Option LingoSBD
  imtTopic : Option String
  cellularIMEI : Option String
  message : Bytes
  remoteAddr : String

inductive Source where
  | imt
  | cellular
  | sbd
  deriving DecidableEq

def Source.text : Source → String
  | .imt => "cloudloop_imt"
  | .cellular => "cloudloop_cellular"
  | .sbd => "cloudloop_sbd"

def bearerOf : Source → String
  | .imt => "imt"
  | .cellular => "cellular"
  | .sbd => "sbd"

variable (mo : LingoMO)

def LingoMO.extractIMEI : String :=
  let hardware := mo.hardwareIMEI.getD ""
  let sbd := (mo.sbd.map (·.imei)).getD ""
  if hardware ≠ "" then hardware else if sbd ≠ "" then sbd else mo.cellularIMEI.getD ""

def LingoMO.momsn : Int := (mo.sbd.map (·.momsn)).getD 0

def LingoMO.location : Option LingoLocation := mo.sbd.bind (·.location)

def LingoMO.source : Source :=
  if mo.imtTopic.isSome then .imt else if mo.cellularIMEI.isSome then .cellular else .sbd

def imtTopicRaw : String := "IMT_TOPIC_RAW"

def hostOf (addr : String) : String :=
  match addr.toList.reverse.dropWhile (· ≠ ':') with
  | _ :: c :: host => String.ofList (c :: host).reverse
  | _ => addr

def LingoMO.transmitTime : String :=
  k.rfc3339 ((mo.sbd.map (·.sessionAt)).getD mo.receivedAt)

def LingoMO.dedupKey (raw : Bytes) : String := "cl:" ++ mo.id ++ ":" ++ k.digest raw

/-- Only an SBD session has a sequence number of the modem's own. -/
def moMessageID (imei : String) (momsn : Int) (source : Source) (lingoID transmitTime : String) :
    String :=
  if source = .sbd then "mo-" ++ imei ++ "-" ++ toString momsn
  else if lingoID ≠ "" then "mo-" ++ imei ++ "-" ++ lingoID
  else "mo-" ++ imei ++ "-t" ++ transmitTime

namespace LingoMO

def messageID : String :=
  moMessageID mo.extractIMEI mo.momsn mo.source mo.id (mo.transmitTime k)

def isReticulum (raw : Bytes) : Bool :=
  mo.imtTopic.getD "" = imtTopicRaw && k.looksLikeReticulum raw

def rawMessage (raw : Bytes) : RawMessage where
  imei := mo.extractIMEI
  momsn := mo.momsn
  raw := k.encodeBase64 raw
  transmitTime := mo.transmitTime k
  latitude := (mo.location.map (·.latitude)).getD 0
  longitude := (mo.location.map (·.longitude)).getD 0
  cep := (mo.location.map (·.cep)).getD 0
  source := mo.source.text

/-- Version byte and key, unless the payload is a Reticulum packet. -/
def unwrapped (reticulum : Bool) (data : Bytes) : Unwrapped :=
  if reticulum then ⟨0, data, false⟩ else unwrap k mo.extractIMEI data

/-- The decoded message. `wire` is the payload as it was sent. -/
def decoded (wire data : Bytes) (reticulum : Bool) (d : Declaration) : MOMessage :=
  let u := mo.unwrapped k reticulum data
  let isSealed := sealedForAnother k u.version u.encrypted u.payload d
  let text := if reticulum then ([], .none) else readText k isSealed u.payload
  { id := mo.messageID k
    imei := mo.extractIMEI
    momsn := mo.momsn
    text := text.1
    raw := k.encodeBase64 (if u.encrypted then u.payload else data)
    compression := text.2
    encrypted := u.encrypted
    transmitTime := mo.transmitTime k
    latitude := (mo.location.map (·.latitude)).getD 0
    longitude := (mo.location.map (·.longitude)).getD 0
    cep := (mo.location.map (·.cep)).getD 0
    isOpaque := reticulum || isSealed || text.1.length = 0
    wire := wire
    source := mo.source.text
    imtTopic := mo.imtTopic.getD ""
    reticulum := reticulum }

def position : Option PositionMessage :=
  match mo.location with
  | some l =>
    if !isZero l.latitude || !isZero l.longitude then
      some ⟨l.latitude, l.longitude, l.cep, mo.source.text, .given (mo.transmitTime k)⟩
    else none
  | none => none

def manage (text : Bytes) : Handler Bool :=
  if text.length = 0 then pure false
  else Ask.handleInbound (bearerOf mo.source) mo.extractIMEI text

def process (auth : String) (reticulum : Bool) (wire data : Bytes) : Handler Answer := do
  let u := mo.unwrapped k reticulum data
  let d ← declaration auth mo.extractIMEI u
  let m := mo.decoded k wire data reticulum d
  let managed ← mo.manage m.text
  if managed then pure .oobFrame
  else
    fileMO auth m (mo.position k) "cloudloop_webhook"
      ("imei=" ++ mo.extractIMEI ++ " id=" ++ mo.id ++ " source=" ++ mo.source.text ++ " bytes=" ++
        toString u.payload.length) (hostOf mo.remoteAddr)

/-- What is done with a payload that is new. Only SBD messages come in fragments. -/
def receive (auth : String) (raw : Bytes) : Handler Answer := do
  let uplink ← handleBridgeSatUplink auth (bearerOf mo.source) mo.extractIMEI raw
  if uplink then pure .bridgeUplink
  else do
    Ask.file mo.extractIMEI auth (.publish .moRaw (.raw (mo.rawMessage k raw)))
    let found ← reassemble mo.extractIMEI raw
      (if bearerOf mo.source = "sbd" then iridiumMOMTU else 0)
    orAnswer (fun whole => mo.process k auth (mo.isReticulum k raw)
      ((whole.map k.encodeBase64).getD mo.message) (whole.getD raw)) found

def ackToBridge (auth : String) : Handler Unit :=
  match mo.sbd with
  | some sbd => Ask.file mo.extractIMEI auth (.receipt sbd.momsn)
  | none => pure ()

def accept (auth : String) (raw : Bytes) : Handler Answer := do
  mo.ackToBridge auth
  let isNew ← Ask.isNew (mo.dedupKey k raw)
  if isNew then mo.receive k auth raw else pure .duplicate

def processLingoMO (url : String) : Handler Answer :=
  if mo.extractIMEI = "" then pure .missingIMEI
  else do
    let own ← ownDevice url mo.extractIMEI
    if own then do
      -- the tenant under which the thing is remembered
      let _ ← Ask.resolve mo.extractIMEI (authTenant url)
      match k.decodeBase64 mo.message with
      | none => pure .errorDecode
      | some raw => mo.accept k (authTenant url) raw
    else pure .forbidden

end LingoMO

/-- A delivery of Twilio. -/
structure SMSForm where
  sender : String
  recipient : String
  body : Bytes
  messageSID : String
  remoteAddr : String

variable (f : SMSForm)

def SMSForm.dedupKey (raw : Bytes) : String :=
  "sms:" ++ f.sender ++ ":" ++ k.digest raw

def smsMessageID (messageSID : String) : Handler String :=
  if messageSID = "" then do
    let xid ← Ask.newID
    pure ("sms-in-" ++ xid)
  else pure ("sms-in-" ++ messageSID)

namespace SMSForm

def row (id : String) (text rawHex : Bytes) (compressed : Bool) (status : String) : Message where
  id := id
  deviceIMEI := f.sender
  channel := "sms"
  momsn := 0
  text := text
  rawHex := rawHex
  compressed := compressed
  status := status
  latitude := 0
  longitude := 0

def inbound (id : String) (text : Bytes) (compression : Compression)
    (encrypted lane : Bool) : InboundSMS where
  id := id
  sender := f.sender
  recipient := f.recipient
  text := text
  messageSID := f.messageSID
  compression := compression
  encrypted := encrypted
  lane := lane

variable (auth : String)

/-- The lane gets the tenant of the URL and nothing else. -/
def takenByLane (body : Bytes) (isSealed opened : Bool) : Handler Bool :=
  Ask.takeSMS auth ⟨f.sender, f.messageSID, body, isSealed, opened⟩

def processData (data : Bytes) : Handler Answer := do
  let reading := k.readSMS f.sender data
  let id ← smsMessageID f.messageSID
  let asReceived := k.encodeBase64 data
  let isSealed := !reading.encrypted && k.sealedSMS asReceived
  let lane ← f.takenByLane auth asReceived isSealed reading.encrypted
  let m := f.inbound id reading.text reading.compression reading.encrypted lane
  Ask.file f.sender auth (.publish .moDecoded (.sms m))
  Ask.publishHub (.sms m)
  Ask.file f.sender auth (.insert (f.row id reading.text (k.encodeBase64 reading.kept)
    (reading.compression ≠ .none) (if reading.encrypted then "decrypted" else "received")))
  Ask.file f.sender auth .checkIn
  Ask.file f.sender auth (.audit "webhook_sms"
    ("from=" ++ f.sender ++ " bytes=" ++ toString data.length ++ " compressed=" ++
      toString (decide (reading.compression ≠ .none)) ++ " encrypted=" ++
      toString reading.encrypted) f.remoteAddr)
  pure .ok

def receive (raw : Bytes) : Handler Answer := do
  let uplink ← handleBridgeSatUplink auth "sms" f.sender raw
  if uplink then pure .bridgeUplink
  else do
    Ask.file f.sender auth (.publish .moRaw (.rawSMS f.sender (k.encodeBase64 raw)))
    let found ← reassemble f.sender raw 0
    orAnswer (fun whole => f.processData k auth (whole.getD raw)) found

def processBinaryPipeline (raw : Bytes) : Handler Answer := do
  let isNew ← Ask.isNew (f.dedupKey k raw)
  if isNew then f.receive k auth raw else pure .duplicate

/-- Publish, store and record a text. One lookup serves the topic and the row. -/
def processText (auth id : String) : Handler Answer := do
  let tenant ← Ask.resolve f.sender auth
  let lane ← f.takenByLane auth f.body false false
  let m := f.inbound id f.body .none false lane
  Ask.fileAs tenant f.sender (.publish .moDecoded (.sms m))
  Ask.publishHub (.sms m)
  Ask.fileAs tenant f.sender (.insert (f.row id f.body [] false "received"))
  Ask.file f.sender auth .checkIn
  pure .twiml

def processPlaintextSMS : Handler Answer := do
  let id ← smsMessageID f.messageSID
  let managed ← Ask.handleInbound "sms" f.sender f.body
  if managed then pure .oobFrame else f.processText auth id

/-- `ServeHTTP` after the delivery has been authenticated. A body that is base64 of
something goes through the binary pipeline. -/
def serveHTTP (url : String) : Handler Answer :=
  if f.sender = "" || f.body.length = 0 then pure .missingField
  else
    match (k.decodeBase64 f.body).filter fun raw => 0 < raw.length with
    | some raw => f.processBinaryPipeline k (authTenant url) raw
    | none => f.processPlaintextSMS (authTenant url)

end SMSForm

inductive Satellite where
  | rockblock (f : RockblockForm)
  | cloudloop (mo : LingoMO)

def Satellite.handle (url : String) : Satellite → Handler Answer
  | .rockblock f => f.serveHTTP k url
  | .cloudloop mo => mo.processLingoMO k url

/-- The modem. -/
def Satellite.imei : Satellite → String
  | .rockblock f => f.imei
  | .cloudloop mo => mo.extractIMEI

def Satellite.payload : Satellite → Option Bytes
  | .rockblock f => k.decodeHex f.data
  | .cloudloop mo => k.decodeBase64 mo.message

def Satellite.messageID : Satellite → String
  | .rockblock f => sbdMessageID f.imei f.momsn
  | .cloudloop mo => mo.messageID k

def Satellite.dedupKey (raw : Bytes) : Satellite → String
  | .rockblock f => f.dedupKey k raw
  | .cloudloop mo => mo.dedupKey k raw

end MeshsatHub.Inbound
