import MeshsatHub.Msgpack.RoundTrip

/-!
# LXMF messages

A message is packed as destination, source, signature and a msgpack array of timestamp, title,
content and fields, with the stamp as a fifth element, which neither hash nor signature covers.
SHA-256 and Ed25519 are parameters. A nil and an empty slice are told apart only for the stamp.
-/

namespace MeshsatHub.Lxmf
open Msgpack

def destLen : Nat := 16

def sigLen : Nat := 64

/-- The hash and the check of a signature. -/
structure Suite where
  sha256 : Bytes → Vector UInt8 32
  verifySignature : Bytes → Bytes → Bytes → Bool

structure Identity (suite : Suite) where
  sigPub : Bytes
  sign : Bytes → Bytes
  length_sign : ∀ data, (sign data).length = sigLen
  verify_sign : ∀ data, suite.verifySignature sigPub data (sign data) = true

/-- How numbers become 64-bit floats, on the bits. -/
structure Floats where
  widen : UInt32 → UInt64
  ofInt : Int → UInt64

structure Message where
  dest : Vector UInt8 16
  source : Vector UInt8 16
  timestamp : UInt64
  title : Bytes
  content : Bytes
  fields : Value
  stamp : Option Bytes
  hash : Vector UInt8 32
  signature : Bytes
  packed : Bytes
  signatureValid : Bool
  sourceKnown : Bool

def Message.fieldsMap (m : Message) : Value :=
  match m.fields with
  | .map kvs => .map kvs
  | _ => .map []

def Message.payloadValue (m : Message) (withStamp : Bool) : Value :=
  .array ([.float m.timestamp, .bin m.title, .bin m.content, m.fieldsMap] ++
    if withStamp then (m.stamp.map Value.bin).toList else [])

def Message.payloadBytes (m : Message) (withStamp : Bool) : Bytes := pack (m.payloadValue withStamp)

def hashedPart (dest source : Vector UInt8 16) (payload : Bytes) : Bytes :=
  dest.toList ++ source.toList ++ payload

variable (suite : Suite)

def signedPart (hashed : Bytes) : Bytes := hashed ++ (suite.sha256 hashed).toList

inductive PackError where
  | stampFailed

def isZero (bits : UInt64) : Bool := bits = 0 || bits = 0x8000000000000000

def Message.hashed (now : UInt64) (m : Message) : Message :=
  let m := if isZero m.timestamp then { m with timestamp := now } else m
  { m with hash := suite.sha256 (hashedPart m.dest m.source (m.payloadBytes false)) }

def Message.signed {suite : Suite} (source : Identity suite) (m : Message) : Message :=
  let hashed := hashedPart m.dest m.source (m.payloadBytes false)
  let signature := source.sign (hashed ++ m.hash.toList)
  { m with
    signature
    signatureValid := true
    packed := m.dest.toList ++ m.source.toList ++ signature ++ m.payloadBytes true }

def Message.pack {suite : Suite} (source : Identity suite) (now : UInt64) (stampCost : Int)
    (stamper : Option (Vector UInt8 32 → Int → Option Bytes)) (m : Message) :
    Option PackError × Message :=
  let m := m.hashed suite now
  match stamper with
  | some stamper =>
    if stampCost > 0 then
      match stamper m.hash stampCost with
      | none => (some .stampFailed, { m with stamp := none })
      | some stamp => (none, { m with stamp := some stamp }.signed source)
    else (none, m.signed source)
  | none => (none, m.signed source)

inductive MessageError where
  | tooShort
  | payload (e : UnpackError)
  | notFourElements

def binOrStr : Value → Bytes
  | .bin b => b
  | .str s => s
  | _ => []

variable (floats : Floats)

def timestampOf : Value → UInt64
  | .float bits => bits
  | .int i => floats.ofInt i.toInt
  | .uint u => if u.toNat < 2 ^ 63 then floats.ofInt u.toNat else 0
  | _ => 0

/-- The stamp in a fifth element. An empty one is decoded to nil. -/
def stampOf : Option Value → Option Bytes
  | some (.bin b) => if b = [] then none else some b
  | _ => none

def toVector (n : Nat) (b : Bytes) : Vector UInt8 n := Vector.ofFn fun i => b.getD i 0

/-- The parts that stand before the payload. -/
structure Frame where
  dest : Vector UInt8 16
  source : Vector UInt8 16
  signature : Bytes

variable (packed : Bytes)

def frameOf : Frame where
  dest := toVector 16 packed
  source := toVector 16 (packed.drop destLen)
  signature := (packed.drop (2 * destLen)).take sigLen

def elements : Except MessageError (List Value) :=
  if packed.length < 2 * destLen + sigLen + 1 then .error .tooShort
  else
    let payloadRaw := packed.drop (2 * destLen + sigLen)
    match unpackValue floats.widen payloadRaw with
    | .error e => .error (.payload e)
    | .ok (.array vs, n) =>
      if n ≠ payloadRaw.length ∨ vs.length < 4 then .error .notFourElements else .ok vs
    | .ok _ => .error .notFourElements

/-- What is computed from the frame and the first four elements. -/
def hashOf (f : Frame) (vs : List Value) : Bytes :=
  hashedPart f.dest f.source (Msgpack.pack (.array (vs.take 4)))

variable (sourceSigPub : Option (Vector UInt8 16 → Option Bytes))

def keyOf (f : Frame) : Option Bytes :=
  sourceSigPub.bind fun lookup => lookup f.source

def received (f : Frame) (vs : List Value) : Message :=
  let hashed := hashOf f vs
  { dest := f.dest
    source := f.source
    timestamp := timestampOf floats (vs.getD 0 .nil)
    title := binOrStr (vs.getD 1 .nil)
    content := binOrStr (vs.getD 2 .nil)
    fields := vs.getD 3 .nil
    stamp := stampOf vs[4]?
    hash := suite.sha256 hashed
    signature := f.signature
    packed
    signatureValid :=
      match keyOf sourceSigPub f with
      | some pub => suite.verifySignature pub (signedPart suite hashed) f.signature
      | none => false
    sourceKnown := (keyOf sourceSigPub f).isSome }

def unpack : Except MessageError Message :=
  match elements floats packed with
  | .error e => .error e
  | .ok vs => .ok (received suite floats packed sourceSigPub (frameOf packed) vs)

end MeshsatHub.Lxmf
