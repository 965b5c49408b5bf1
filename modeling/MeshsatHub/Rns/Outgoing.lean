import MeshsatHub.Foundations.Slices
import MeshsatHub.Rns.Links

/-!
# Resources that are sent

The sender encrypts a resource, cuts the stream into parts of `Link.sdu` bytes, advertises the
number of parts and the first map hashes, and serves parts and further map hashes on request. What
times decide is a choice of the environment. SHA-256, the cipher of the link and bzip2 are
parameters (`Crypto`). A part from outside the stream is `Partition.outOfRange`.
-/

namespace MeshsatHub.Rns
open Rnswire Slices List

inductive Value where
  | nil
  | bool (b : Bool)
  | int (i : Int64)
  | uint (u : UInt64)
  | float (bits : UInt64)
  | str (s : String)
  | bin (b : Bytes)
  | array (vs : List Value)
  | map (kvs : List (Value × Value))
  | ext (b : Bytes)

def Value.ofNat (n : Nat) : Value := .uint (.ofNat n)

def Value.asInt : Value → Int
  | .int i => i.toInt
  | .uint u => if u.toNat < 2 ^ 63 then u.toNat else 0
  | _ => 0

def Value.bytes : Value → Bytes
  | .bin b => b
  | _ => []

def Value.isKey (k : String) : Value → Bool
  | .str s => s == k
  | _ => false

def Value.get (k : String) : Value → Value
  | .map kvs => ((kvs.find? fun kv => kv.1.isKey k).map (·.2)).getD .nil
  | _ => .nil

theorem Value.asInt_lt (v : Value) : v.asInt < 2 ^ 63 := by
  cases v with
  | int i =>
    rw [asInt]
    have := i.toInt_lt
    omega
  | uint u =>
    rw [asInt]
    split <;> omega
  | _ =>
    change (0 : Int) < 2 ^ 63
    decide

theorem Value.asInt_ofNat {n : Nat} (h : n < 2 ^ 63) : (ofNat n).asInt = n := by
  have hn : (UInt64.ofNat n).toNat = n := by
    exact Nat.mod_eq_of_lt (by omega)
  rw [ofNat, asInt, hn, if_pos h]

def resourceMapHashLen : Nat := 4

def resourceRandomHashLen : Nat := 4

def resourceWindowMaxFast : Nat := 75

def resourceAdvOverhead : Nat := 134

def resourceMaxAdvRetries : Nat := 4

def resourceMaxSize : Nat := 1 * 1024 * 1024 - 1

def resourceHashmapMaxLen : Nat := (431 - resourceAdvOverhead) / resourceMapHashLen

/-- How far from its lower end the sender looks for a requested part. -/
def resourceCollisionGuard : Nat := 2 * resourceWindowMaxFast + resourceHashmapMaxLen

def resourceHashmapNotExh : UInt8 := 0x00

def resourceHashmapExh : UInt8 := 0xFF

def fullHashLen : Nat := 32

/-- The primitives that a transfer uses. -/
structure Crypto where
  sum256 : Bytes → Bytes
  length_sum256 : ∀ b, (sum256 b).length = fullHashLen
  decrypt : Bytes → Option Bytes
  bunzip2 : Bytes → Option Bytes

def Crypto.mapHash (c : Crypto) (random part : Bytes) : Bytes :=
  (c.sum256 (part ++ random)).take resourceMapHashLen

theorem Crypto.length_mapHash (c : Crypto) (random part : Bytes) :
    (c.mapHash random part).length = resourceMapHashLen := by
  rw [mapHash, length_take, c.length_sum256]
  rfl

/-- What one turn of the outer loop of `sendResource` comes to. -/
inductive Partition where
  | parts (parts mapHashes : List Bytes)
  | collision
  | outOfRange (i stop : Int)

/-- The inner loop of `sendResource`. -/
def partitionLoop (mapHash : Bytes → Bytes) (enc : Bytes) (sdu : Int) :
    Nat → Int → List Bytes → List Bytes → Option Partition
  | 0, _, _, _ => none
  | fuel + 1, i, parts, mapHashes =>
    if i < enc.length then
      let stop := if enc.length < i + sdu then (enc.length : Int) else i + sdu
      if 0 ≤ i ∧ i ≤ stop ∧ stop ≤ enc.length then
        let part := (enc.drop i.toNat).take (stop - i).toNat
        if mapHash part ∈ mapHashes then some .collision
        else
          partitionLoop mapHash enc sdu fuel (i + sdu) (parts ++ [part])
            (mapHashes ++ [mapHash part])
      else some (.outOfRange i stop)
    else some (.parts parts mapHashes)

theorem partitionLoop_slices {mapHash : Bytes → Bytes} {size fuel : Nat} (hsize : 0 < size)
    (before rest : Bytes) (parts : List Bytes) (hfuel : rest.length < fuel)
    (hnodup : (parts.map mapHash).Nodup) :
    partitionLoop mapHash (before ++ rest) size fuel before.length parts (parts.map mapHash) =
      some (if ((parts ++ slices size rest).map mapHash).Nodup then
          .parts (parts ++ slices size rest) ((parts ++ slices size rest).map mapHash)
        else .collision) := by
  induction rest using slices_induction hsize generalizing before parts fuel with
    obtain ⟨fuel, rfl⟩ := Nat.exists_eq_add_one_of_ne_zero (Nat.ne_zero_of_lt hfuel)
  | nil =>
    rw [slices_nil hsize, append_nil, append_nil, if_pos hnodup, partitionLoop, if_neg (by omega)]
  | cons rest hrest ih =>
    have hlength := length_pos_iff.2 hrest
    -- the end of the slice, whether or not it is the last one
    have hstop : (if ((before ++ rest).length : Int) < (before.length : Int) + size then
        ((before ++ rest).length : Int) else (before.length : Int) + size) =
        (before.length : Int) + (rest.take size).length := by
      rw [length_append, length_take]
      split <;> omega
    have hin : 0 ≤ (before.length : Int) ∧
        (before.length : Int) ≤ before.length + (rest.take size).length ∧
        (before.length : Int) + (rest.take size).length ≤ (before ++ rest).length := by
      omega
    have hpart : ((before ++ rest).drop (before.length : Int).toNat).take
        ((before.length : Int) + (rest.take size).length - before.length).toNat =
        rest.take size := by
      have hcount : ((before.length : Int) + (rest.take size).length - before.length).toNat =
          min size rest.length := by
        rw [length_take]
        omega
      rw [Int.toNat_natCast, drop_left, hcount, ← take_eq_take_min]
    rw [partitionLoop, if_pos (by rw [length_append]; omega)]
    dsimp only
    rw [hstop, if_pos hin, hpart, slices_of_ne_nil hsize hrest]
    split
    case isTrue hmem =>
      rw [if_neg]
      rw [map_append, map_cons]
      intro hall
      exact (nodup_append.1 hall).2.2 _ hmem _ mem_cons_self rfl
    case isFalse hmem =>
      have hnext : (parts.map mapHash ++ [mapHash (rest.take size)]) =
          (parts ++ [rest.take size]).map mapHash := by
        rw [map_append, map_singleton]
      have hnodup' : ((parts ++ [rest.take size]).map mapHash).Nodup := by
        rw [← hnext, nodup_append]
        refine ⟨hnodup, nodup_singleton _, ?_⟩
        rintro h hh _ hh' rfl
        exact hmem (mem_singleton.1 hh' ▸ hh)
      rw [hnext]
      by_cases hlast : size ≤ rest.length
      · have hlengthNext : ((before ++ rest.take size).length : Int) = before.length + size := by
          rw [length_append, length_take]
          omega
        have hwhole : before ++ rest = (before ++ rest.take size) ++ rest.drop size := by
          rw [append_assoc, take_append_drop]
        rw [hwhole, ← hlengthNext, ih _ _ (by rw [length_drop]; omega) hnodup',
          append_assoc, singleton_append]
      · have hdrop : rest.drop size = [] := drop_eq_nil_iff.2 (by omega)
        have hdone : partitionLoop mapHash (before ++ rest) size fuel (before.length + size)
            (parts ++ [rest.take size]) ((parts ++ [rest.take size]).map mapHash) =
            some (.parts (parts ++ [rest.take size])
              ((parts ++ [rest.take size]).map mapHash)) := by
          obtain ⟨fuel, rfl⟩ := Nat.exists_eq_add_one_of_ne_zero (show fuel ≠ 0 by omega)
          rw [partitionLoop, if_neg (by rw [length_append]; omega)]
        rw [hdone, hdrop, slices_nil hsize, if_pos hnodup']

/-- One turn of the outer loop of `sendResource`, for one drawn random hash. -/
def Crypto.partition (c : Crypto) (random enc : Bytes) (sdu : Int) : Option Partition :=
  partitionLoop (c.mapHash random) enc sdu (enc.length + 1) 0 [] []

theorem Crypto.partition_eq (c : Crypto) (random enc : Bytes) {sdu : Int} (h : 0 < sdu) :
    c.partition random enc sdu =
      some (if ((slices sdu.toNat enc).map (c.mapHash random)).Nodup then
          .parts (slices sdu.toNat enc) ((slices sdu.toNat enc).map (c.mapHash random))
        else .collision) := by
  have hsize : 0 < sdu.toNat := by omega
  have hloop :
      partitionLoop (c.mapHash random) ([] ++ enc) sdu.toNat (enc.length + 1) 0 [] [] = _ :=
    partitionLoop_slices hsize [] enc [] (Nat.lt_succ_self _) nodup_nil
  rw [Int.toNat_of_nonneg (Int.le_of_lt h)] at hloop
  exact hloop

/-- How far a transfer is for its sender. -/
inductive OutgoingState where
  | advertised
  | transferring
  | awaitingProof
  | complete
  | failed

inductive TransferError where
  | tooLarge
  | noDraw
  | outOfRange
  | sequencing
  | hmu
  | noRequests
  | timedOut
  | rejected

structure OutgoingResource where
  hash : Bytes
  data : Bytes
  parts : List Bytes
  partSent : List Bool
  mapHashes : List Bytes
  randomHash : Bytes
  expectedProof : Bytes
  dataSize : Nat
  sentParts : Nat
  advRetries : Nat
  state : OutgoingState
  recvMinHeight : Nat
  requestID : Option Bytes
  isResponse : Bool

/-- Random hashes are drawn until the map hashes of the parts differ. -/
def Crypto.drawLoop (c : Crypto) (enc : Bytes) (sdu : Int) : List Bytes → Option (Bytes × Partition)
  | [] => none
  | random :: draws =>
    match c.partition random enc sdu with
    | none => none
    | some .collision => c.drawLoop enc sdu draws
    | some p => some (random, p)

/-- Set up a transfer of a payload; `enc` is the encrypted stream and `draws` are the random
hashes in the order in which they are drawn. -/
def Crypto.sendResource (c : Crypto) (l : Link) (payload enc : Bytes) (draws : List Bytes)
    (requestID : Option Bytes) (isResponse : Bool) : Except TransferError OutgoingResource :=
  if resourceMaxSize < payload.length then .error .tooLarge
  else
    match c.drawLoop enc l.sdu draws with
    | some (random, .parts parts mapHashes) =>
      let hash := c.sum256 (payload ++ random)
      .ok
        { hash
          data := enc
          parts
          partSent := replicate parts.length false
          mapHashes
          randomHash := random
          expectedProof := c.sum256 (payload ++ hash)
          dataSize := payload.length
          sentParts := 0
          advRetries := 0
          state := .advertised
          recvMinHeight := 0
          requestID
          isResponse }
    | some (_, .outOfRange _ _) => .error .outOfRange
    | _ => .error .noDraw

variable (r : OutgoingResource)

def OutgoingResource.segmentHashes (segment : Nat) : List Bytes :=
  (r.mapHashes.take (min ((segment + 1) * resourceHashmapMaxLen) r.parts.length)).drop
    (segment * resourceHashmapMaxLen)

def OutgoingResource.flags : Nat :=
  match r.requestID with
  | none => 0x01
  | some _ => if r.isResponse then 0x11 else 0x09

def OutgoingResource.advertisement (segment : Nat) : Value :=
  .map
    [(.str "t", .ofNat r.data.length),
      (.str "d", .ofNat r.dataSize),
      (.str "n", .ofNat r.parts.length),
      (.str "h", .bin r.hash),
      (.str "r", .bin r.randomHash),
      (.str "o", .bin r.hash),
      (.str "i", .ofNat 1),
      (.str "l", .ofNat 1),
      (.str "q", (r.requestID.map Value.bin).getD .nil),
      (.str "f", .ofNat r.flags),
      (.str "m", .bin (r.segmentHashes segment).flatten)]

structure ResourceRequest where
  exhausted : Bool
  lastMap : Bytes
  hash : Bytes
  wanted : List Bytes

def parseResourceRequest : Bytes → Option ResourceRequest
  | [] => none
  | flag :: rest =>
    if rest.length < fullHashLen then none
    else if flag = resourceHashmapExh then
      if rest.length < resourceMapHashLen + fullHashLen then none
      else
        let body := rest.drop resourceMapHashLen
        some
          { exhausted := true
            lastMap := rest.take resourceMapHashLen
            hash := body.take fullHashLen
            wanted := pieces resourceMapHashLen (body.drop fullHashLen) }
    else
      some
        { exhausted := false
          lastMap := replicate resourceMapHashLen 0
          hash := rest.take fullHashLen
          wanted := pieces resourceMapHashLen (rest.drop fullHashLen) }

/-- The end of the window in which the sender looks for a requested part. -/
def OutgoingResource.searchEnd : Nat :=
  min (r.recvMinHeight + resourceCollisionGuard) r.parts.length

def OutgoingResource.searchWindow : List Nat :=
  range' r.recvMinHeight (r.searchEnd - r.recvMinHeight)

def OutgoingResource.markSent (i : Nat) : OutgoingResource :=
  if r.partSent.getD i false then r
  else { r with partSent := r.partSent.set i true, sentParts := r.sentParts + 1 }

def afterLastMap (mapHashes : List Bytes) (lastMap : Bytes) : List Nat → Nat → Nat
  | [], idx => idx
  | i :: is, idx =>
    if mapHashes.getD i [] = lastMap then idx + 1
    else afterLastMap mapHashes lastMap is (idx + 1)

/-- The answer to a request. -/
inductive Served where
  | cancelled (r : OutgoingResource) (err : TransferError)
  | served (r : OutgoingResource) (parts : List Bytes) (hmu : Option Value)

/-- Everything is sent, so only the proof is missing. -/
def OutgoingResource.settle : OutgoingResource :=
  if r.sentParts = r.parts.length then { r with state := .awaitingProof } else r

def OutgoingResource.serve (r₀ : OutgoingResource) (req : ResourceRequest) : Served :=
  let r := { r₀ with state := .transferring }
  let found := r.searchWindow.filter fun i => req.wanted.contains (r.mapHashes.getD i [])
  let toSend := found.map fun i => r.parts.getD i []
  let marked := found.foldl OutgoingResource.markSent r
  if req.exhausted then
    let idx := afterLastMap r.mapHashes req.lastMap r.searchWindow r.recvMinHeight
    let moved := { marked with recvMinHeight := idx - 1 - resourceWindowMaxFast }
    if idx % resourceHashmapMaxLen ≠ 0 then .cancelled moved .sequencing
    else
      let segment := idx / resourceHashmapMaxLen
      let hm := r.segmentHashes segment
      if hm.flatten.length = 0 then .cancelled moved .hmu
      else .served moved.settle toSend (some (.array [.ofNat segment, .bin hm.flatten]))
  else .served marked.settle toSend none

end MeshsatHub.Rns
