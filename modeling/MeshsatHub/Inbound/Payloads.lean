import MeshsatHub.Egress.Births
import MeshsatHub.Foundations.Numerals

/-!
# What inbound payloads are read as

The parts of `internal/codec`, `internal/fragment` and `internal/bridge` that the three webhook
handlers apply to a payload. The codecs and ciphers are fields of `Codecs`, and so is the reading of
an SMS frame. The key `device:msgID` of a pending message is the pair of both.
-/

namespace MeshsatHub.Inbound
open Egress Numerals

abbrev Bytes := List UInt8

inductive Compression where
  | none
  | smaz2
  | msvqsc
  deriving DecidableEq

/-- What the SMS pipeline makes of a payload: the text, how it was compressed,
whether a key opened it, and the bytes that are kept. -/
structure SMSReading where
  text : Bytes
  compression : Compression
  encrypted : Bool
  kept : Bytes

structure LingoTimestamp where
  year : Int
  month : Int
  day : Int
  hour : Int
  minute : Int
  second : Int

/-- Codecs, ciphers and hashes. A decoder that fails answers `none`. -/
structure Codecs where
  sha256 : Bytes → Bytes
  rfc3339 : LingoTimestamp → String
  decodeHex : String → Option Bytes
  encodeBase64 : Bytes → Bytes
  decodeBase64 : Bytes → Option Bytes
  decryptMessage : String → Bytes → Option Bytes
  decompress : Bytes → Option Bytes
  looksLikeMSVQSC : Bytes → Bool
  decodeMSVQSC : Bytes → Option Bytes
  looksLikeReticulum : Bytes → Bool
  readSMS : String → Bytes → SMSReading
  sealedSMS : Bytes → Bool

/-- The first eight bytes of the hash, in hexadecimal. -/
def Codecs.digest (k : Codecs) (data : Bytes) : String :=
  String.ofList (((k.sha256 data).take 8).flatMap fun x => fixedWidth 16 Nat.digitChar 2 x.toNat)

def isPrintable (b : Bytes) : Bool :=
  b.all (fun c => !(c < 0x20 && c ≠ 10 && c ≠ 13 && c ≠ 9)) && 0 < b.length

def isControlFree (b : Bytes) : Bool := isPrintable b

def isPrintableASCII (b : Bytes) : Bool :=
  0 < b.length && b.all fun c => 0x20 ≤ c && c ≤ 0x7E

/-- The length of a nonce and a tag. -/
def overhead : Nat := 28

def protoVersion1 : UInt8 := 0x01

/-- First bytes that tell a kind of payload and are no version byte. -/
def magicBytes : List UInt8 := [0xA5, 0x50, 0x44, 0xCA, 0x49, 0x7B]

def stripVersionByte : Bytes → UInt8 × Bytes
  | [] => (0, [])
  | first :: rest =>
    if first ∈ magicBytes then (0, first :: rest)
    else if first = protoVersion1 then (first, rest)
    else (0, first :: rest)

variable (k : Codecs)

def isBase64Ciphertext (b : Bytes) : Bool :=
  40 ≤ b.length &&
    match k.decodeBase64 b with
    | some raw => overhead ≤ raw.length && !isControlFree raw
    | none => false

def sealedForAnother (protoVersion : UInt8) (decrypted : Bool) (b : Bytes) (d : Declaration) :
    Bool :=
  if protoVersion = 0 || decrypted then false
  else if isBase64Ciphertext k b then true
  else
    match d with
    | .declaredSealed | .unavailable => overhead < b.length
    | _ => false

structure Unwrapped where
  version : UInt8
  payload : Bytes
  encrypted : Bool

def unwrap (imei : String) (raw : Bytes) : Unwrapped :=
  let stripped := stripVersionByte raw
  let payload := if 0 < stripped.1 then stripped.2 else raw
  if overhead ≤ payload.length then
    match k.decryptMessage imei payload with
    | some decrypted => ⟨stripped.1, decrypted, true⟩
    | none => ⟨stripped.1, payload, false⟩
  else ⟨stripped.1, payload, false⟩

/-- The text of a payload and how it was compressed. A sealed payload is not
decompressed: its base64 form is its text, its binary form has none. -/
def readText (isSealed : Bool) (payload : Bytes) : Bytes × Compression :=
  if isSealed then (if isBase64Ciphertext k payload then payload else [], .none)
  else
    match (k.decompress payload).filter fun text => 0 < text.length && isPrintable text with
    | some text => (text, .smaz2)
    | none =>
      if k.looksLikeMSVQSC payload then
        match (k.decodeMSVQSC payload).filter fun text => 0 < text.length with
        | some text => (text, .msvqsc)
        | none => ([], .none)
      else (if isPrintable payload then payload else [], .none)

def isBridgeSatUplink : Bytes → Bool
  | magic0 :: magic1 :: version :: _ :: _ => magic0 = 0x4D && magic1 = 0x53 && version = 1
  | _ => false

def iridiumMOMTU : Nat := 340

def minFragmentPayload : Nat := 100

/-- Index, total and message number of a fragment header. -/
def decodeHeader (b0 b1 : UInt8) : UInt8 × UInt8 × UInt8 :=
  (b0 >>> 4, (b0 &&& 0x0F) + 1, b1)

def isFragment : Bytes → Bool
  | b0 :: b1 :: payload =>
    let (index, total, _) := decodeHeader b0 b1
    minFragmentPayload ≤ payload.length && 1 < total && index < total
  | _ => false

structure PendingMessage where
  fragments : List (Option Bytes)
  total : Nat
  received : Nat
  createdAt : Nat

abbrev Reassembler := String → UInt8 → Option PendingMessage

variable (r : Reassembler) (deviceID : String)

/-- Whether a payload is taken for a fragment. The last fragment is only taken
when its siblings are waiting. -/
def claims (data : Bytes) (mtu : Nat) : Bool :=
  match data with
  | b0 :: b1 :: _ =>
    if mtu = 0 || !isFragment data || b0 = protoVersion1 then false
    else
      let (index, total, msgID) := decodeHeader b0 b1
      if index < total - 1 then data.length = mtu
      else if mtu < data.length then false
      else (r deviceID msgID).any fun pm => pm.total = total.toNat
  | _ => false

/-- How adding a fragment ends. -/
inductive Added where
  | failed
  | waiting
  | whole (data : Bytes)
  deriving DecidableEq

/-- Replace what is pending under one key. -/
def Reassembler.put (msgID : UInt8) (pm : Option PendingMessage) : Reassembler :=
  Function.update r deviceID (Function.update (r deviceID) msgID pm)

def PendingMessage.add (pm : PendingMessage) (index : Nat) (payload : Bytes) : PendingMessage :=
  { pm with
    received := if pm.fragments[index]? = some none then pm.received + 1 else pm.received
    fragments := pm.fragments.set index (some payload) }

/-- The first header of a message is trusted. -/
def addFragment (data : Bytes) (now : Nat) : Added × Reassembler :=
  match data with
  | b0 :: b1 :: payload =>
    let (index, total, msgID) := decodeHeader b0 b1
    let pm := (r deviceID msgID).getD ⟨List.replicate total.toNat none, total.toNat, 0, now⟩
    if pm.total ≤ index.toNat then (.failed, r.put deviceID msgID (some pm))
    else
      let pm := pm.add index.toNat payload
      if pm.received < pm.total then (.waiting, r.put deviceID msgID (some pm))
      else (.whole (pm.fragments.flatMap fun f => f.getD []), r.put deviceID msgID none)
  | _ => (.failed, r)

variable {deviceID : String} {r r' : Reassembler}

theorem claims_eq_false {data : Bytes} {mtu : Nat} (h : mtu = 0 ∨ isFragment data = false) :
    claims r deviceID data mtu = false := by
  unfold claims
  split
  · obtain h | h := h <;> simp [h]
  · rfl

theorem claims_congr (h : r deviceID = r' deviceID) (data : Bytes) (mtu : Nat) :
    claims r deviceID data mtu = claims r' deviceID data mtu := by
  unfold claims
  rw [h]

theorem addFragment_congr (h : r deviceID = r' deviceID) (data : Bytes)
    (now : Nat) : (addFragment r deviceID data now).1 = (addFragment r' deviceID data now).1 ∧
      (addFragment r deviceID data now).2 deviceID =
        (addFragment r' deviceID data now).2 deviceID := by
  unfold addFragment
  split
  · simp only [h]
    split
    · simp [Reassembler.put, h]
    · split <;> simp [Reassembler.put, h]
  · exact ⟨rfl, h⟩

theorem addFragment_other {other : String} (h : other ≠ deviceID) (data : Bytes) (now : Nat) :
    (addFragment r deviceID data now).2 other = r other := by
  unfold addFragment
  split
  · simp only
    split
    · simp [Reassembler.put, h]
    · split <;> simp [Reassembler.put, h]
  · rfl

end MeshsatHub.Inbound
