import Mathlib
import MeshsatHub.Foundations.Numerals
import MeshsatHub.Foundations.Readers

/-!
# The msgpack codec

A float is its 64 bits; the widening of a 32-bit float is a parameter. The decoder takes fuel for
the depth of the value, one for each byte of the input.
-/

namespace MeshsatHub.Msgpack
open Numerals Readers

abbrev Bytes := List UInt8

/-- A msgpack value. The bytes of an extension are kept as they came. -/
inductive Value where
  | nil
  | bool (b : Bool)
  | int (i : Int64)
  | uint (u : UInt64)
  | float (bits : UInt64)
  | str (s : Bytes)
  | bin (b : Bytes)
  | array (vs : List Value)
  | map (kvs : List (Value × Value))
  | ext (raw : Bytes)
  deriving Repr

def packUint (u : Nat) : Bytes :=
  if u < 128 then [UInt8.ofNat u]
  else if u < 2 ^ 8 then 0xCC :: bigEndian 1 u
  else if u < 2 ^ 16 then 0xCD :: bigEndian 2 u
  else if u < 2 ^ 32 then 0xCE :: bigEndian 4 u
  else 0xCF :: bigEndian 8 u

/-- A negative number as an unsigned one of `w` bytes. -/
def twosComplement (w : Nat) (i : Int) : Nat := (i % 2 ^ (8 * w)).toNat

def packNegative (i : Int) : Bytes :=
  if -32 ≤ i then bigEndian 1 (twosComplement 1 i)
  else if -2 ^ 7 ≤ i then 0xD0 :: bigEndian 1 (twosComplement 1 i)
  else if -2 ^ 15 ≤ i then 0xD1 :: bigEndian 2 (twosComplement 2 i)
  else if -2 ^ 31 ≤ i then 0xD2 :: bigEndian 4 (twosComplement 4 i)
  else 0xD3 :: bigEndian 8 (twosComplement 8 i)

def strHeader (n : Nat) : Bytes :=
  if n < 32 then [0xA0 ||| UInt8.ofNat n]
  else if n < 2 ^ 8 then 0xD9 :: bigEndian 1 n
  else if n < 2 ^ 16 then 0xDA :: bigEndian 2 n
  else 0xDB :: bigEndian 4 n

def binHeader (n : Nat) : Bytes :=
  if n < 2 ^ 8 then 0xC4 :: bigEndian 1 n
  else if n < 2 ^ 16 then 0xC5 :: bigEndian 2 n
  else 0xC6 :: bigEndian 4 n

def arrayHeader (n : Nat) : Bytes :=
  if n < 16 then [0x90 ||| UInt8.ofNat n]
  else if n < 2 ^ 16 then 0xDC :: bigEndian 2 n
  else 0xDD :: bigEndian 4 n

def mapHeader (n : Nat) : Bytes :=
  if n < 16 then [0x80 ||| UInt8.ofNat n]
  else if n < 2 ^ 16 then 0xDE :: bigEndian 2 n
  else 0xDF :: bigEndian 4 n

mutual

/-- Writes a value with the shortest header that holds it. -/
def pack : Value → Bytes
  | .nil => [0xC0]
  | .bool b => if b then [0xC3] else [0xC2]
  | .uint u => packUint u.toNat
  | .int i => if 0 ≤ i.toInt then packUint i.toInt.toNat else packNegative i.toInt
  | .float bits => 0xCB :: bigEndian 8 bits.toNat
  | .str s => strHeader s.length ++ s
  | .bin b => binHeader b.length ++ b
  | .array vs => arrayHeader vs.length ++ packAll vs
  | .map kvs => mapHeader kvs.length ++ packPairs kvs
  | .ext raw => raw

def packAll : List Value → Bytes
  | [] => []
  | v :: vs => pack v ++ packAll vs

def packPairs : List (Value × Value) → Bytes
  | [] => []
  | (k, v) :: kvs => pack k ++ pack v ++ packPairs kvs

end

inductive UnpackError where
  | malformed
  | unsupported (head : UInt8)

/-- What a first byte announces. A size `k` stands for a field of `2 ^ k` bytes. -/
inductive Head where
  | fixint
  | negativeFixint
  | fixstr (n : Nat)
  | fixarray (n : Nat)
  | fixmap (n : Nat)
  | nil
  | bool (b : Bool)
  | bin (size : Nat)
  | float32
  | float64
  | uint (size : Nat)
  | int (size : Nat)
  | str (size : Nat)
  | array (size : Nat)
  | map (size : Nat)
  | fixext (size : Nat)
  | ext (size : Nat)
  | unsupported
  deriving DecidableEq

def headOf (h : UInt8) : Head :=
  if h ≤ 0x7F then .fixint
  else if h ≥ 0xE0 then .negativeFixint
  else if h &&& 0xE0 = 0xA0 then .fixstr (h &&& 0x1F).toNat
  else if h &&& 0xF0 = 0x90 then .fixarray (h &&& 0x0F).toNat
  else if h &&& 0xF0 = 0x80 then .fixmap (h &&& 0x0F).toNat
  else if h = 0xC0 then .nil
  else if h = 0xC2 then .bool false
  else if h = 0xC3 then .bool true
  else if h = 0xC4 ∨ h = 0xC5 ∨ h = 0xC6 then .bin (h - 0xC4).toNat
  else if h = 0xCA then .float32
  else if h = 0xCB then .float64
  else if h = 0xCC ∨ h = 0xCD ∨ h = 0xCE ∨ h = 0xCF then .uint (h - 0xCC).toNat
  else if h = 0xD0 ∨ h = 0xD1 ∨ h = 0xD2 ∨ h = 0xD3 then .int (h - 0xD0).toNat
  else if h = 0xD9 ∨ h = 0xDA ∨ h = 0xDB then .str (h - 0xD9).toNat
  else if h = 0xDC ∨ h = 0xDD then .array (h - 0xDC + 1).toNat
  else if h = 0xDE ∨ h = 0xDF then .map (h - 0xDE + 1).toNat
  else if h = 0xD4 ∨ h = 0xD5 ∨ h = 0xD6 ∨ h = 0xD7 ∨ h = 0xD8 then .fixext (h - 0xD4).toNat
  else if h = 0xC7 ∨ h = 0xC8 ∨ h = 0xC9 then .ext (h - 0xC7).toNat
  else .unsupported

/-- The number in an unsigned field, as an integer of `w` bytes with a sign: shifted to the top
of a 64-bit word and back. -/
def signed (w u : Nat) : Int64 := Int64.ofInt (Int.bmod u (2 ^ (8 * w)))

/-- The length fields that are read go up to this. -/
def maxLength : Nat := 2 ^ 31

abbrev Decoder (β : Type) := Reader UnpackError UInt8 β

def take (n : Nat) : Decoder Bytes := need .malformed n

def length (size : Nat) : Decoder Nat := (take (2 ^ size)).andThen fun b rest =>
  if readBigEndian b > maxLength then .error .malformed else .ok (readBigEndian b, rest)

def extBody (size : Nat) : Decoder Bytes := (take (2 ^ size)).andThen fun field rest =>
  if readBigEndian field > maxLength then .error .malformed
  else (take (1 + readBigEndian field)).map (fun body => field ++ body) rest

def value (widen : UInt32 → UInt64) : Nat → Decoder Value
  | _, [] => .error .malformed
  | 0, _ :: _ => .error .malformed
  | fuel + 1, h :: rest =>
    match headOf h with
    | .fixint => .ok (.uint (UInt64.ofNat h.toNat), rest)
    | .negativeFixint => .ok (.int (signed 1 h.toNat), rest)
    | .fixstr n => (take n).map .str rest
    | .fixarray n => (times (value widen fuel) n).map .array rest
    | .fixmap n => (times (both (value widen fuel)) n).map .map rest
    | .nil => .ok (.nil, rest)
    | .bool b => .ok (.bool b, rest)
    | .bin size => (length size).andThen (fun n => (take n).map .bin) rest
    | .float32 => (take 4).map (fun b => .float (widen (UInt32.ofNat (readBigEndian b)))) rest
    | .float64 => (take 8).map (fun b => .float (UInt64.ofNat (readBigEndian b))) rest
    | .uint size => (take (2 ^ size)).map (fun b => .uint (UInt64.ofNat (readBigEndian b))) rest
    | .int size => (take (2 ^ size)).map (fun b => .int (signed (2 ^ size) (readBigEndian b))) rest
    | .str size => (length size).andThen (fun n => (take n).map .str) rest
    | .array size => (length size).andThen (fun n => (times (value widen fuel) n).map .array) rest
    | .map size =>
      (length size).andThen (fun n => (times (both (value widen fuel)) n).map .map) rest
    | .fixext size => (take (1 + 2 ^ size)).map (fun body => .ext (h :: body)) rest
    | .ext size => (extBody size).map (fun body => .ext (h :: body)) rest
    | .unsupported => .error (.unsupported h)

/-- Reads one value off the front of a byte string. -/
def unpackValue (widen : UInt32 → UInt64) (b : Bytes) : Except UnpackError (Value × Nat) :=
  match value widen b.length b with
  | .ok (v, rest) => .ok (v, b.length - rest.length)
  | .error e => .error e

end MeshsatHub.Msgpack
