import MeshsatHub.Foundations.Procedures
import MeshsatHub.Inbound.Payloads
import MeshsatHub.Tenancy.Lookups

/-!
# What the webhook handlers work on

The operations the three handlers ask for, and the store that answers them. What is filed under a
tenant is an `Effect`; `Op.file` is a lookup of the tenant and the effect under it. A choice is made
per operation: the clock, and what fails, without an effect. Management frames and the replies of
conversations are parameters.
-/

namespace MeshsatHub.Inbound
open Egress Procedures Tenancy Topics Function

section

abbrev Float64 := UInt64

def isZero (x : Float64) : Bool := x = 0 || x = 0x8000000000000000

/-- A time the sender gives, or the time at which the record is written. -/
inductive Stamp where
  | given (text : String)
  | now

/-- The raw payload of a satellite message. `source` is empty for RockBLOCK. -/
structure RawMessage where
  imei : String
  momsn : Int
  raw : Bytes
  transmitTime : String
  latitude : Float64
  longitude : Float64
  cep : Float64
  source : String

/-- A decoded satellite message. The last fields are Cloudloop's. -/
structure MOMessage where
  id : String
  imei : String
  momsn : Int
  text : Bytes
  raw : Bytes
  compression : Compression
  encrypted : Bool
  transmitTime : String
  latitude : Float64
  longitude : Float64
  cep : Float64
  isOpaque : Bool
  wire : Bytes
  source : String
  imtTopic : String
  reticulum : Bool

structure PositionMessage where
  latitude : Float64
  longitude : Float64
  cep : Float64
  source : String
  timestamp : Stamp

structure InboundSMS where
  id : String
  sender : String
  recipient : String
  text : Bytes
  messageSID : String
  compression : Compression
  encrypted : Bool
  lane : Bool

inductive Payload where
  | raw (m : RawMessage)
  | rawSMS (sender : String) (raw : Bytes)
  | decoded (m : MOMessage)
  | sms (m : InboundSMS)
  | position (p : PositionMessage)

structure Message where
  id : String
  deviceIMEI : String
  channel : String
  momsn : Int
  text : Bytes
  rawHex : Bytes
  compressed : Bool
  status : String
  latitude : Float64
  longitude : Float64

/-- The topics of a device that the handlers publish on. -/
inductive TopicKind where
  | moRaw
  | moDecoded
  | satMO
  | position

/-- What is done under a tenant. -/
inductive Effect where
  /-- The receipt for the bridge that owns the modem. -/
  | receipt (momsn : Int)
  /-- An uplink frame handed to the sink. -/
  | frame (bearer : String) (raw : Bytes)
  | publish (topic : TopicKind) (payload : Payload)
  | insert (m : Message)
  | checkIn
  | audit (actor detail ip : String)

/-- A reply as the lane of a tenant's conversations sees it. -/
structure LaneSMS where
  sender : String
  messageSID : String
  body : Bytes
  isSealed : Bool
  opened : Bool

inductive Entry where
  | filed (tenant device : String) (effect : Effect) (time : Nat)
  /-- The copy on the Hub's own topic `meshsat/hub/sms/inbound`. -/
  | hubCopy (payload : Payload) (time : Nat)
  | managed (peer : Option String) (bearer origin : String) (text : Bytes)
  | taken (tenant : String) (sms : LaneSMS)

/-- The tenant an entry concerns. The Hub's own topic is nobody's. -/
def Entry.tenant : Entry → Option String
  | .filed tenant _ _ _ => some tenant
  | .hubCopy _ _ => none
  | .managed peer _ _ _ => peer
  | .taken tenant _ => some tenant

/-- What a handler asks for. -/
inductive Op where
  | resolve (id auth : String)
  | file (id auth : String) (effect : Effect)
  /-- An effect under a tenant that was looked up before. -/
  | fileAs (tenant id : String) (effect : Effect)
  | isNew (key : String)
  | handleInbound (bearer origin : String) (text : Bytes)
  | claims (device : String) (data : Bytes) (mtu : Nat)
  | addFragment (device : String) (data : Bytes)
  | declaration (id auth : String)
  | takeSMS (tenant : String) (sms : LaneSMS)
  | publishHub (payload : Payload)
  | newID

def Op.Answer : Op → Type
  | .resolve _ _ | .newID => String
  | .file _ _ _ | .fileAs _ _ _ | .publishHub _ => Unit
  | .isNew _ | .handleInbound _ _ _ | .claims _ _ _ | .takeSMS _ _ => Bool
  | .addFragment _ _ => Added
  | .declaration _ _ => Declaration

/-- What the store rows and the packages outside decide. -/
structure Config where
  codecs : Codecs
  registry : Registry
  /-- `DeviceBridgeID`: the bridge that owns a tenant's modem. -/
  bridgeOf : String → String → Option String
  declared : String → String → Declaration
  /-- Whether a text is a management frame, and the tenant of the peer it is from. -/
  managed : String → String → Bytes → Option (Option String)
  takes : String → LaneSMS → Bool
  dedupTTL : Nat

/-- The clock during one operation and what fails in it. -/
structure Choice where
  failures : Failures
  publishFails : Bool
  storeFails : Bool
  xid : String

structure Row where
  tenant : String
  message : Message

/-- The replicas' memories and the shared tables. Every resolver was made for
the platform's own tenant. -/
structure Store where
  resolvers : Nat → Resolver
  reassemblers : Nat → Reassembler
  seen : String → Option Nat
  rows : String → Option Row
  platform : ∀ n, (resolvers n).defTenant = defaultTenant

variable (cfg : Config) (replica : Nat) (g : Store) (c : Choice)

/-- One lookup of a device's tenant, for a caller authenticated as `auth`. -/
def Store.lookup (id auth : String) : String × Store :=
  let found := forDeviceTopic (g.resolvers replica) (cfg.registry.failing c.failures) id auth
  (found.1, { g with
    resolvers := update g.resolvers replica found.2
    platform := by
      intro n
      by_cases hn : n = replica
      · subst hn
        simpa [found] using g.platform n
      · simpa [hn] using g.platform n })

def Effect.takesPlace (tenant device : String) : Effect → Bool
  | .receipt _ => !c.storeFails && (cfg.bridgeOf tenant device).isSome && !c.publishFails
  | .publish _ _ => !c.publishFails
  | .insert m => !c.storeFails && (g.rows m.id).isNone
  | .audit _ _ _ => !c.storeFails
  | .frame _ _ | .checkIn => true

def Store.file (tenant device : String) (effect : Effect) : Store × List Entry :=
  if effect.takesPlace cfg g c tenant device then
    (match effect with
      | .insert m => { g with rows := update g.rows m.id (some ⟨tenant, m⟩) }
      | _ => g, [.filed tenant device effect c.failures.now])
  else (g, [])

/-- Set a key if it is absent or its lifetime is over. -/
def Store.isNew (key : String) : Bool × Store :=
  if (g.seen key).any fun expiry => c.failures.now < expiry then (false, g)
  else (true, { g with
    seen := update g.seen key (some (c.failures.now + cfg.dedupTTL)) })

def respond : (op : Op) → Reply Store Entry op.Answer
  | .resolve id auth =>
    let found := g.lookup cfg replica c id auth
    ⟨found.2, [], found.1⟩
  | .file id auth effect =>
    let found := g.lookup cfg replica c id auth
    let filed := found.2.file cfg c found.1 id effect
    ⟨filed.1, filed.2, ()⟩
  | .fileAs tenant id effect =>
    let filed := g.file cfg c tenant id effect
    ⟨filed.1, filed.2, ()⟩
  | .isNew key =>
    let marked := g.isNew cfg c key
    ⟨marked.2, [], marked.1⟩
  | .handleInbound bearer origin text =>
    match cfg.managed bearer origin text with
    | some peer => ⟨g, [.managed peer bearer origin text], true⟩
    | none => ⟨g, [], false⟩
  | .claims device data mtu => ⟨g, [], Inbound.claims (g.reassemblers replica) device data mtu⟩
  | .addFragment device data =>
    let added := Inbound.addFragment (g.reassemblers replica) device data c.failures.now
    ⟨{ g with reassemblers := update g.reassemblers replica added.2 }, [], added.1⟩
  | .declaration id auth =>
    let found := g.lookup cfg replica c id auth
    ⟨found.2, [], if c.storeFails then .unavailable else cfg.declared found.1 id⟩
  | .takeSMS tenant sms =>
    let answer := cfg.takes tenant sms
    ⟨g, if answer then [.taken tenant sms] else [], answer⟩
  | .publishHub payload => ⟨g, if c.publishFails then [] else [.hubCopy payload c.failures.now], ()⟩
  | .newID => ⟨g, [], c.xid⟩

end

variable {cfg : Config} {replica : Nat} {g : Store} {c : Choice} {effect : Effect}

theorem Store.lookup_tenant (url id : String) : (g.lookup cfg replica c id (authTenant url)).1 =
      (astray (g.resolvers replica) cfg.registry c.failures url id).getD
        (cfg.registry.rightful url id) :=
  forDeviceTopic_astray (g.platform replica) url id

theorem Store.lookup_resolvers (id auth : String) :
    (g.lookup cfg replica c id auth).2.resolvers = update g.resolvers replica
      (forDeviceTopic (g.resolvers replica) (cfg.registry.failing c.failures) id auth).2 := rfl

@[simp] theorem Store.lookup_seen (id auth : String) :
    (g.lookup cfg replica c id auth).2.seen = g.seen := rfl

theorem Effect.takesPlace_congr {g' : Store}
    (h : ∀ m, effect = .insert m → g.rows m.id = g'.rows m.id) (tenant device : String) :
    effect.takesPlace cfg g c tenant device = effect.takesPlace cfg g' c tenant device := by
  cases effect with
  | insert m => simp only [takesPlace, h m rfl]
  | _ => rfl

theorem Store.mem_file {tenant device : String} {e : Entry} :
    e ∈ (g.file cfg c tenant device effect).2 ↔
      effect.takesPlace cfg g c tenant device ∧
        e = .filed tenant device effect c.failures.now := by
  unfold Store.file
  split
  case isTrue h => simp [h]
  case isFalse h => simp [h]

end MeshsatHub.Inbound
