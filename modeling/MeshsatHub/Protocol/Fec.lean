import Mathlib
import MeshsatHub.Foundations.Numerals
import MeshsatHub.Foundations.Slices

/-!
# Forward error correction

A payload is written as Reed–Solomon shards behind a header. The reconstruction is told of no
missing shard, so nothing is repaired, and the payload is read off the data shards as they are. The
library is a parameter, `Lawful` is what it documents. An error is `none`. A negative count is
refused, or ignored, as zero is.
-/

namespace MeshsatHub.Fec
open Numerals Slices List

abbrev Bytes := List UInt8

def fecVersion1 : UInt8 := 0x01

def fecVersion2 : UInt8 := 0x02

def fecHeaderLenV2 : Nat := 6

def fecFlagInterleaved : UInt8 := 0x01

def fecOrigLenTrailer : Nat := 4

structure FECEncodeOpts where
  interleave : Bool
  interleaveDepth : Nat

/-- An encoder of the library; a missing shard is an empty one. -/
structure Encoder where
  encode : List Bytes → Option (List Bytes)
  verify : List Bytes → Option Bool
  reconstruct : List Bytes → Option (List Bytes)

/-- What the library documents: shards of one size are encoded, which keeps the data shards, and a
reconstruction fills missing shards only. -/
structure Lawful (k m : Nat) (enc : Encoder) : Prop where
  accepts : ∀ {shards size}, shards.length = k + m → 0 < size → (∀ s ∈ shards, s.length = size) →
    (enc.encode shards).isSome
  data : ∀ {shards out}, enc.encode shards = some out → out.take k = shards.take k
  sizes : ∀ {shards out}, enc.encode shards = some out → out.map length = shards.map length
  fills : ∀ {shards size}, shards.length = k + m → 0 < size → (∀ s ∈ shards, s.length = size) →
    enc.reconstruct shards = some shards

section Interleave

/-- The positions in the order of the loops over `d` and `s`. -/
def positions (n depth : Nat) : List Nat :=
  (range depth).flatMap fun d =>
    ((range ((n + depth - 1) / depth)).map (· * depth + d)).filter (· < n)

/-- The bytes in the order of `positions`. -/
def fecInterleave (data : Bytes) (depth : Nat) : Bytes :=
  if depth ≤ 1 ∨ data = [] then data
  else (positions data.length depth).map fun src => data.getD src 0

def fecDeinterleave (data : Bytes) (depth : Nat) : Bytes :=
  if depth ≤ 1 ∨ data = [] then data
  else ((positions data.length depth).zip data).foldl (fun out w => out.set w.1 w.2)
    (replicate data.length 0)

variable {n depth : Nat} {data : Bytes}

theorem mem_positions (hdepth : 0 < depth) {p : Nat} : p ∈ positions n depth ↔ p < n := by
  simp only [positions, mem_flatMap, mem_filter, mem_map, mem_range, decide_eq_true_eq]
  constructor
  · rintro ⟨-, -, -, hp⟩
    exact hp
  · intro hp
    refine ⟨p % depth, Nat.mod_lt p hdepth, ⟨p / depth, ?_, Nat.div_add_mod' p depth⟩, hp⟩
    rw [Nat.div_lt_iff_lt_mul hdepth]
    have hround := Nat.div_add_mod' (n + depth - 1) depth
    have hrest := Nat.mod_lt (n + depth - 1) hdepth
    omega

theorem positions_perm (hdepth : 0 < depth) : positions n depth ~ range n := by
  refine (perm_ext_iff_of_nodup ?_ nodup_range).2 fun p => by rw [mem_positions hdepth, mem_range]
  rw [positions, nodup_flatMap]
  constructor
  · intro d _
    refine (nodup_range.map fun s t heq => ?_).filter _
    exact Nat.eq_of_mul_eq_mul_right hdepth (Nat.add_right_cancel heq)
  · refine nodup_range.imp_of_mem fun {d d'} hd hd' hne p hp hp' => hne ?_
    -- The remainder of a position is the loop it is reached in.
    have hmod : ∀ d < depth, ∀ s, (s * depth + d) % depth = d := fun d hd s => by
      rw [Nat.add_comm, Nat.add_mul_mod_self_right, Nat.mod_eq_of_lt hd]
    simp only [mem_filter, mem_map] at hp hp'
    obtain ⟨⟨s, -, rfl⟩, -⟩ := hp
    obtain ⟨⟨t, -, heq⟩, -⟩ := hp'
    rw [← hmod d (mem_range.1 hd) s, ← heq, hmod d' (mem_range.1 hd')]

@[simp] theorem length_fecInterleave : (fecInterleave data depth).length = data.length := by
  unfold fecInterleave
  split
  · rfl
  · rw [length_map, (positions_perm (by omega)).length_eq, length_range]

theorem length_foldl_set (ws : List (Nat × UInt8)) (out : Bytes) :
    (ws.foldl (fun out w => out.set w.1 w.2) out).length = out.length := by
  induction ws generalizing out with
  | nil => rfl
  | cons w ws ih => rw [foldl_cons, ih, length_set]

@[simp] theorem length_fecDeinterleave : (fecDeinterleave data depth).length = data.length := by
  unfold fecDeinterleave
  split
  · rfl
  · rw [length_foldl_set, length_replicate]

theorem getElem?_foldl_set (f : Nat → UInt8) (order : List Nat) (out : Bytes) (p : Nat) :
    ((order.zip (order.map f)).foldl (fun out w => out.set w.1 w.2) out)[p]? =
      if p ∈ order then out[p]?.map fun _ => f p else out[p]? := by
  induction order generalizing out with
  | nil => simp
  | cons q rest ih =>
    grind

theorem fecDeinterleave_fecInterleave :
    fecDeinterleave (fecInterleave data depth) depth = data := by
  have hlength : (fecInterleave data depth).length = data.length := length_fecInterleave
  unfold fecDeinterleave
  by_cases hsame : depth ≤ 1 ∨ data = []
  · rw [fecInterleave, if_pos hsame, if_pos hsame]
  · rw [if_neg (by rwa [← length_eq_zero_iff, hlength, length_eq_zero_iff]), hlength, fecInterleave,
      if_neg hsame]
    apply ext_getElem?
    intro p
    rw [getElem?_foldl_set]
    by_cases hp : p < data.length <;> simp [mem_positions (show 0 < depth by omega), hp]

theorem exists_positions (hdepth : 1 < depth) (hn : 1 < n) :
    ∃ rest, positions n depth = 0 :: (if depth < n then depth else 1) :: rest := by
  obtain ⟨e, rfl⟩ := Nat.exists_eq_add_of_le' hdepth
  have hrange : ∀ t, range (t + 2) = 0 :: 1 :: (range t).map (· + 2) := fun t => by
    simp [range_succ_eq_map, Function.comp_def]
  rw [positions, hrange, flatMap_cons, flatMap_cons]
  split
  next hlt =>
    have hstride : 2 ≤ (n + (e + 2) - 1) / (e + 2) :=
      (Nat.le_div_iff_mul_le (by omega)).2 (by omega)
    obtain ⟨t, ht⟩ := Nat.exists_eq_add_of_le' hstride
    rw [ht, hrange]
    simp [filter_cons, hlt, show 0 < n by omega]
  next hle =>
    have hstride : (n + (e + 2) - 1) / (e + 2) = 1 :=
      Nat.div_eq_of_lt_le (by omega) (by omega)
    rw [hstride]
    simp [hn, show 0 < n by omega]

theorem getElem?_fecInterleave_one (hdepth : 1 < depth) (hlength : 1 < data.length) :
    (fecInterleave data depth)[1]? = data[if depth < data.length then depth else 1]? := by
  obtain ⟨rest, hrest⟩ := exists_positions hdepth hlength
  have hsource : (if depth < data.length then depth else 1) < data.length := by split <;> omega
  have hne : data ≠ [] := ne_nil_of_length_pos (by omega)
  rw [fecInterleave, if_neg (by simp [hne]; omega), hrest, map_cons, map_cons, getElem?_cons_succ,
    getElem?_cons_zero, getD_eq_getElem _ _ hsource, getElem?_eq_getElem hsource]

theorem getElem?_foldl_set_of_ne (ws : List (Nat × UInt8)) (out : Bytes) {p : Nat}
    (h : ∀ w ∈ ws, w.1 ≠ p) :
    (ws.foldl (fun out w => out.set w.1 w.2) out)[p]? = out[p]? := by
  induction ws generalizing out with
  | nil => rfl
  | cons w ws ih =>
    obtain ⟨hw, hws⟩ := forall_mem_cons.1 h
    rw [foldl_cons, ih _ hws, getElem?_set_ne hw]

theorem getElem?_fecDeinterleave_depth (hdepth : 1 < depth) (hlength : depth < data.length) :
    (fecDeinterleave data depth)[depth]? = data[1]? := by
  obtain ⟨rest, hrest⟩ := exists_positions hdepth (Nat.lt_trans hdepth hlength)
  rw [if_pos hlength] at hrest
  have hnodup : (positions data.length depth).Nodup :=
    (positions_perm (by omega)).nodup_iff.2 nodup_range
  rw [hrest, nodup_cons, nodup_cons] at hnodup
  obtain ⟨a, data, rfl⟩ := exists_cons_of_length_pos (show 0 < data.length by omega)
  rw [length_cons] at hlength
  obtain ⟨b, data, rfl⟩ := exists_cons_of_length_pos (show 0 < data.length by omega)
  rw [fecDeinterleave, if_neg (by simp; omega), hrest, zip_cons_cons, zip_cons_cons, foldl_cons,
    foldl_cons, getElem?_foldl_set_of_ne]
  · rw [getElem?_set_self (by simpa using hlength)]
    rfl
  · rintro w hw rfl
    exact hnodup.2.1 (of_mem_zip hw).1

end Interleave

section Code
variable (new : Nat → Nat → Option Encoder)

def FECEncodeOpts.flags (opt : FECEncodeOpts) : UInt8 :=
  if opt.interleave ∧ 0 < opt.interleaveDepth then
    fecFlagInterleaved ||| (UInt8.ofNat (min (opt.interleaveDepth - 1) 15 <<< 1) &&& 0x1E)
  else 0

def FECEncodeOpts.applied (opt : FECEncodeOpts) (shardData : Bytes) : Bytes :=
  if opt.flags &&& fecFlagInterleaved ≠ 0 then fecInterleave shardData opt.interleaveDepth
  else shardData

def header (dataShards parityShards shardSize : Nat) (flags : UInt8) : Bytes :=
  [fecVersion2, UInt8.ofNat dataShards, UInt8.ofNat parityShards] ++
    (bigEndian 2 shardSize).reverse ++ [flags]

def prefixed (data : Bytes) : Bytes := (bigEndian fecOrigLenTrailer data.length).reverse ++ data

def padded (data : Bytes) (dataShards : Nat) : Bytes :=
  if (prefixed data).length % dataShards ≠ 0 then
    prefixed data ++ replicate (dataShards - (prefixed data).length % dataShards) 0
  else prefixed data

/-- The shards behind a header with their counts, their size and the flags. -/
def fecEncode (data : Bytes) (dataShards parityShards : Nat) (opt : FECEncodeOpts) : Option Bytes :=
  if dataShards < 1 ∨ 255 < dataShards ∨ parityShards < 1 ∨ 255 < parityShards ∨
      256 < dataShards + parityShards then none
  else
    match new dataShards parityShards with
    | none => none
    | some enc =>
      if 2 ^ 32 ≤ data.length then none
      else
        let padded := padded data dataShards
        let shardSize := padded.length / dataShards
        match enc.encode (cut shardSize dataShards padded ++
          replicate parityShards (replicate shardSize 0)) with
        | none => none
        | some shards =>
          if 65535 < shardSize then none
          else some (header dataShards parityShards shardSize opt.flags ++
            opt.applied shards.flatten)

/-- The shards of a message, with the counts in its header. -/
structure Received where
  dataShards : Nat
  parityShards : Nat
  shards : List Bytes

def headerDepth (flags : UInt8) : Nat :=
  if flags &&& fecFlagInterleaved ≠ 0 then ((flags >>> 1) &&& 0x0F).toNat + 1 else 0

def split (dataShards parityShards shardSize depth : Nat) (body : Bytes) : Option Received :=
  let totalShards := dataShards + parityShards
  if body.length < totalShards * shardSize then none
  else some ⟨dataShards, parityShards,
    cut shardSize totalShards (fecDeinterleave (body.take (totalShards * shardSize)) depth)⟩

/-- The shards that a header counts. -/
def readShards : Bytes → Option Received
  | version :: k :: m :: lo :: hi :: rest =>
    let shardSize := readBigEndian [hi, lo]
    if version ≠ fecVersion1 ∧ version ≠ fecVersion2 ∨ k < 1 ∨ m < 1 ∨ shardSize < 1 then none
    else if version = fecVersion2 then
      match rest with
      | [] => none
      | flags :: rest => split k.toNat m.toNat shardSize (headerDepth flags) rest
    else split k.toNat m.toNat shardSize 0 rest
  | _ => none

def restored (enc : Encoder) (shards : List Bytes) : Option (List Bytes) :=
  match enc.verify shards with
  | some true => some shards
  | _ => enc.reconstruct shards

/-- The payload without its length and what it was filled up with. -/
def stripped (result : Bytes) : Option Bytes :=
  let origLen := readBigEndian (result.take fecOrigLenTrailer).reverse
  if result.length < fecOrigLenTrailer + origLen then none
  else some ((result.drop fecOrigLenTrailer).take origLen)

/-- What the data shards hold, whether they verify or are reconstructed. -/
def fecDecode (data : Bytes) : Option Bytes :=
  (readShards data).bind fun r =>
    (new r.dataShards r.parityShards).bind fun enc =>
      (restored enc r.shards).bind fun shards => stripped (shards.take r.dataShards).flatten

end Code

section RoundTrip
variable {new : Nat → Nat → Option Encoder} {d E : Bytes} {k m size : Nat} {opt : FECEncodeOpts}
  {enc : Encoder}

/-- The depth can be written in the header. -/
def Readable (opt : FECEncodeOpts) : Prop := opt.interleave = true → opt.interleaveDepth ≤ 16

theorem fecDeinterleave_applied (hdepth : Readable opt) (shardData : Bytes) :
    fecDeinterleave (opt.applied shardData) (headerDepth opt.flags) = shardData := by
  unfold FECEncodeOpts.applied FECEncodeOpts.flags
  by_cases hinter : opt.interleave ∧ 0 < opt.interleaveDepth
  · have hall : ∀ depth < 16, ∀ flags, flags =
        fecFlagInterleaved ||| (UInt8.ofNat (min depth 15 <<< 1) &&& 0x1E) →
          flags &&& fecFlagInterleaved ≠ 0 ∧ headerDepth flags = depth + 1 := by
      simp only [forall_eq]
      decide
    have hle := hdepth hinter.1
    obtain ⟨hflag, hread⟩ := hall (opt.interleaveDepth - 1) (by omega) _ rfl
    rw [if_pos hinter, if_pos hflag, hread, Nat.sub_add_cancel hinter.2,
      fecDeinterleave_fecInterleave]
  · rw [if_neg hinter]
    rfl

theorem length_applied (shardData : Bytes) : (opt.applied shardData).length = shardData.length := by
  unfold FECEncodeOpts.applied
  split
  · exact length_fecInterleave
  · rfl

theorem dvd_length_padded (hk : 0 < k) : k ∣ (padded d k).length := by
  have hrem := Nat.mod_lt (prefixed d).length hk
  unfold padded
  split
  · rw [length_append, length_replicate, Nat.dvd_iff_mod_eq_zero, Nat.add_mod]
    rw [Nat.mod_eq_of_lt (show k - (prefixed d).length % k < k by omega),
      Nat.add_sub_cancel' hrem.le, Nat.mod_self]
  · exact Nat.dvd_of_mod_eq_zero (by omega)

theorem exists_padded (d : Bytes) (hk : 0 < k) :
    ∃ fill, padded d k = prefixed d ++ fill ∧ fill.length < k := by
  unfold padded
  split
  · refine ⟨_, rfl, ?_⟩
    rw [length_replicate]
    omega
  · exact ⟨[], (append_nil _).symm, hk⟩

theorem length_prefixed : (prefixed d).length = 4 + d.length := by
  simp [prefixed, fecOrigLenTrailer]

theorem stripped_padded (hk : 0 < k) (hlength : d.length < 2 ^ 32) :
    stripped (padded d k) = some d := by
  have hread : readBigEndian (bigEndian fecOrigLenTrailer d.length) = d.length :=
    readBigEndian_bigEndian hlength
  have hfront : (bigEndian fecOrigLenTrailer d.length).reverse.length = fecOrigLenTrailer := by simp
  obtain ⟨fill, hfill, -⟩ := exists_padded d hk
  rw [hfill, prefixed, append_assoc]
  simp [stripped, take_left' hfront, drop_left' hfront, hread, ← Nat.add_assoc]

theorem shardSize_pos (hk : 0 < k) : (padded d k).length / k ≠ 0 := by
  obtain ⟨fill, hfill, -⟩ := exists_padded d hk
  intro hzero
  have hmul := Nat.mul_div_cancel' (dvd_length_padded (d := d) hk)
  rw [hzero, hfill, length_append, length_prefixed] at hmul
  omega

theorem length_of_mem_shards {xs : Bytes} (hmul : xs.length = k * size) :
    ∀ s ∈ cut size k xs ++ replicate m (replicate size 0), s.length = size := by
  intro s hs
  obtain hs | hs := mem_append.1 hs
  · exact length_of_mem_cut hmul.ge hs
  · rw [eq_of_mem_replicate hs, length_replicate]

theorem getElem?_of_stripped {result : Bytes} {i : Nat} {b : UInt8} (h : stripped result = some d)
    (hi : d[i]? = some b) : result[4 + i]? = some b := by
  unfold stripped at h
  dsimp only at h
  split at h
  · cases h
  · cases h
    rw [getElem?_take] at hi
    split at hi
    · rwa [getElem?_drop] at hi
    · cases hi

theorem take_cut (k n : Nat) (xs : Bytes) : (cut size (k + n) xs).take k = cut size k xs := by
  induction k generalizing xs with
  | zero => simp [cut]
  | succ k ih => rw [Nat.succ_add, cut, cut, take_succ_cons, ih]

theorem readShards_header {body : Bytes} (hcounts : 1 ≤ k ∧ 1 ≤ m ∧ k + m ≤ 256)
    (hsize : 1 ≤ size ∧ size ≤ 65535) (flags : UInt8) (hbody : body.length = (k + m) * size) :
    readShards (header k m size flags ++ body) =
      some ⟨k, m, cut size (k + m) (fecDeinterleave body (headerDepth flags))⟩ := by
  have hread : readBigEndian (bigEndian 2 size) = size := readBigEndian_bigEndian (by omega)
  obtain ⟨hi, lo, hbytes⟩ := length_eq_two.1 (length_bigEndian 2 size)
  have hcount : ∀ n, 1 ≤ n ∧ n ≤ 255 → (UInt8.ofNat n).toNat = n ∧ ¬UInt8.ofNat n < 1 := by
    intro n hn
    have hn' : (UInt8.ofNat n).toNat = n := by simp; omega
    rw [UInt8.lt_iff_toNat_lt, hn']
    simp; omega
  rw [hbytes] at hread
  simp only [header, hbytes, readShards, reverse_cons, reverse_nil, nil_append, cons_append, hread,
    hcount k (by omega), hcount m (by omega), split, ← hbody]
  simp [fecVersion1, fecVersion2, Nat.ne_zero_of_lt hsize.1]

theorem restored_of_lawful (henc : Lawful k m enc) {shards : List Bytes}
    (hcount : shards.length = k + m) (hsize : 0 < size) (hall : ∀ s ∈ shards, s.length = size) :
    restored enc shards = some shards := by
  unfold restored
  split
  · rfl
  · exact henc.fills hcount hsize hall

/-- The data shards lead to an error or to the payload: they begin with a length that they do not
have, or with the length and the bytes of the payload. -/
def Unharmed (d result : Bytes) : Prop :=
  let origLen := readBigEndian (result.take fecOrigLenTrailer).reverse
  result.length < fecOrigLenTrailer + origLen ∨
    origLen = d.length ∧ d <+: result.drop fecOrigLenTrailer

theorem stripped_unharmed_iff {result : Bytes} :
    stripped result = none ∨ stripped result = some d ↔ Unharmed d result := by
  unfold stripped Unharmed
  dsimp only
  split
  next hshort => simp [hshort]
  next hlong =>
    simp only [hlong, false_or, reduceCtorEq, Option.some.injEq]
    constructor
    · rintro rfl
      refine ⟨?_, take_prefix _ _⟩
      rw [length_take, length_drop]
      omega
    · rintro ⟨hlength, hprefix⟩
      rw [hlength, ← prefix_iff_eq_take.1 hprefix]

/-- A payload that is lost where the header cannot say the depth. Of its bytes one is not zero, and
in its place a byte is read from far behind or from the length. -/
def deepPayload (depth : Nat) : Bytes := (replicate (if depth < 4352 then depth else 13) 0).set 12 1

section Deep
variable {depth : Nat} (hdepth : 16 < depth)
include hdepth

theorem length_deepPayload : 13 ≤ (deepPayload depth).length ∧ (deepPayload depth).length ≤ 4352 ∧
    (depth < 4352 → (deepPayload depth).length = depth) ∧
    (4352 ≤ depth → (deepPayload depth).length = 13) := by
  rw [deepPayload, length_set, length_replicate]
  split <;> omega

theorem getElem?_deepPayload : (deepPayload depth)[12]? = some 1 := by
  have hlong := (length_deepPayload hdepth).1
  rw [deepPayload, length_set] at hlong
  exact getElem?_set_self hlong

theorem getElem?_prefixed_deepPayload (hsmall : depth < 4352) :
    (prefixed (deepPayload depth))[depth]? = some 0 := by
  have hfront : (bigEndian fecOrigLenTrailer (deepPayload depth).length).reverse.length = 4 := by
    rfl
  rw [prefixed, getElem?_append_right (by omega), hfront, deepPayload, if_pos hsmall,
    getElem?_set_ne (by omega), getElem?_replicate, if_pos (by omega)]

end Deep

variable (hnew : ∀ {k m enc}, new k m = some enc → Lawful k m enc)
include hnew

theorem exists_of_fecEncode (h : fecEncode new d k m opt = some E) :
    ∃ enc size shardData, new k m = some enc ∧ (1 ≤ k ∧ 1 ≤ m ∧ k + m ≤ 256) ∧
      (1 ≤ size ∧ size ≤ 65535) ∧ d.length < 2 ^ 32 ∧ shardData.length = (k + m) * size ∧
      shardData.take (k * size) = padded d k ∧
      E = header k m size opt.flags ++ opt.applied shardData := by
  revert h
  fun_cases fecEncode new d k m opt with
  | case6 hcounts enc hcreate hlength xs size shards hencode hsize =>
    rintro ⟨⟩
    have hmul : xs.length = k * size := (Nat.mul_div_cancel' (dvd_length_padded (by omega))).symm
    have hpos : size ≠ 0 := shardSize_pos (by omega)
    have hsizes : shards.map length = replicate (k + m) size := by
      rw [(hnew hcreate).sizes hencode, map_eq_replicate_iff.2 (length_of_mem_shards hmul),
        length_append, length_cut, length_replicate]
    obtain ⟨hcount, hall⟩ := eq_replicate_iff.1 hsizes
    rw [length_map] at hcount
    refine ⟨enc, size, shards.flatten, hcreate, by omega,
      ⟨Nat.pos_of_ne_zero hpos, Nat.not_lt.1 hsize⟩, Nat.not_le.1 hlength, ?_, ?_, rfl⟩
    · rw [length_flatten, hsizes, sum_replicate_nat]
    · rw [← flatten_cut, ← take_cut k m, ← hcount,
        cut_flatten fun s hs => hall _ (mem_map_of_mem hs), (hnew hcreate).data hencode,
        take_left' (length_cut k xs), flatten_cut, take_of_length_le hmul.le]
  | _ => nofun

section
variable (hcreate : new k m = some enc) (hcounts : 1 ≤ k ∧ 1 ≤ m ∧ k + m ≤ 256)
include hcreate hcounts

/-- The payload is read off the data shards as they come, whether or not they are verified. -/
theorem fecDecode_header {body : Bytes} (hsize : 1 ≤ size ∧ size ≤ 65535) (flags : UInt8)
    (hbody : body.length = (k + m) * size) :
    fecDecode new (header k m size flags ++ body) =
      stripped ((fecDeinterleave body (headerDepth flags)).take (k * size)) := by
  have hall : ∀ s ∈ cut size (k + m) (fecDeinterleave body (headerDepth flags)), s.length = size :=
    fun s hs => length_of_mem_cut (by rw [length_fecDeinterleave, hbody]) hs
  have hrestored := restored_of_lawful (hnew hcreate) (length_cut ..) hsize.1 hall
  simp only [fecDecode, readShards_header hcounts hsize flags hbody, Option.bind_some, hcreate,
    hrestored, take_cut, flatten_cut]

theorem exists_fecEncode (hlength : d.length ≤ 5000) : ∃ E, fecEncode new d k m opt = some E := by
  have hmul : (padded d k).length = k * ((padded d k).length / k) :=
    (Nat.mul_div_cancel' (dvd_length_padded hcounts.1)).symm
  have hsize : (padded d k).length / k ≤ 65535 := by
    obtain ⟨fill, hfill, hshort⟩ := exists_padded d hcounts.1
    refine (Nat.div_le_self _ _).trans ?_
    rw [hfill, length_append, length_prefixed]
    omega
  obtain ⟨shards, hencode⟩ := Option.isSome_iff_exists.1 ((hnew hcreate).accepts
    (by rw [length_append, length_cut, length_replicate])
    (Nat.pos_of_ne_zero (shardSize_pos (d := d) hcounts.1)) (length_of_mem_shards hmul))
  rw [fecEncode, if_neg (by omega), hcreate]
  dsimp only
  rw [if_neg (by omega), hencode]
  exact ⟨_, if_neg (Nat.not_lt.2 hsize)⟩

theorem fecDecode_deep (hdepth : ¬Readable opt) :
    ∃ d E, fecEncode new d k m opt = some E ∧ fecDecode new E ≠ some d := by
  obtain ⟨hinter, hdeep⟩ : opt.interleave = true ∧ 16 < opt.interleaveDepth := by
    simpa [Readable] using hdepth
  have hflags : opt.flags = 0x1F := by
    rw [FECEncodeOpts.flags, if_pos ⟨hinter, by omega⟩, Nat.min_eq_right (by omega)]
    decide
  have hlength := length_deepPayload hdeep
  obtain ⟨E, hE⟩ : ∃ E, fecEncode new (deepPayload opt.interleaveDepth) k m opt = some E :=
    exists_fecEncode hnew hcreate hcounts (by omega)
  refine ⟨_, E, hE, fun hdecode => ?_⟩
  obtain ⟨_, size, shardData, -, -, hsize, -, hall, htake, rfl⟩ := exists_of_fecEncode hnew hE
  have happlied : opt.applied shardData = fecInterleave shardData opt.interleaveDepth := by
    rw [FECEncodeOpts.applied, hflags, if_pos (by decide)]
  rw [fecDecode_header hnew hcreate hcounts hsize _ (by rw [length_applied, hall]), happlied,
    hflags, show headerDepth 0x1F = 16 from rfl] at hdecode
  obtain ⟨fill, hfill, hshort⟩ := exists_padded (deepPayload opt.interleaveDepth) hcounts.1
  have hpadded : k * size = 4 + (deepPayload opt.interleaveDepth).length + fill.length := by
    rw [← length_prefixed, ← length_append, ← hfill, ← htake, length_take, hall, Nat.min_eq_left]
    exact Nat.mul_le_mul_right size (Nat.le_add_right k m)
  have hwhole : shardData.length = k * size + m * size := by rw [hall, Nat.add_mul]
  -- the byte of the payload that is not zero, as the decoder reads it
  have hread := getElem?_of_stripped hdecode (getElem?_deepPayload hdeep)
  rw [getElem?_take, if_pos (by omega), getElem?_fecDeinterleave_depth (by decide)
    (by rw [length_fecInterleave]; omega),
    getElem?_fecInterleave_one (by omega) (by omega)] at hread
  have hfront : ∀ p < 4 + (deepPayload opt.interleaveDepth).length,
      shardData[p]? = (prefixed (deepPayload opt.interleaveDepth))[p]? := fun p hp => by
    have hp' : p < (prefixed (deepPayload opt.interleaveDepth)).length := by rwa [length_prefixed]
    rw [← getElem?_append_left hp', ← hfill, ← htake, getElem?_take_of_lt (by omega)]
  by_cases hsmall : opt.interleaveDepth < 4352
  · rw [if_pos (by omega), hfront _ (by omega), getElem?_prefixed_deepPayload hdeep hsmall] at hread
    cases hread
  · -- the depth exceeds all shards, so the second byte of the length is read
    have hsmallSize : size ≤ 17 := by
      by_contra hlarge
      have hmul := Nat.mul_le_mul_left k (Nat.not_le.1 hlarge)
      omega
    have hfew := Nat.mul_le_mul hcounts.2.2 hsmallSize
    rw [if_neg (by omega), hfront _ (by omega), prefixed, deepPayload, if_neg hsmall] at hread
    cases hread

end

/-- Every payload is decoded exactly if it is not interleaved deeper than the header can say. -/
theorem payload_decoded_iff : (∀ d E, fecEncode new d k m opt = some E → fecDecode new E = some d) ↔
      (1 ≤ k ∧ 1 ≤ m ∧ k + m ≤ 256 ∧ (new k m).isSome → Readable opt) := by
  constructor
  · intro hall ⟨hk, hm, hsum, hsome⟩
    obtain ⟨enc, hcreate⟩ := Option.isSome_iff_exists.1 hsome
    by_contra hdepth
    obtain ⟨d, E, hE, hlost⟩ := fecDecode_deep hnew hcreate ⟨hk, hm, hsum⟩ hdepth
    exact hlost (hall d E hE)
  · intro hdepth d E h
    obtain ⟨enc, size, shardData, hcreate, hcounts, hsize, hlength, hall, htake, rfl⟩ :=
      exists_of_fecEncode hnew h
    have hreadable :=
      hdepth ⟨hcounts.1, hcounts.2.1, hcounts.2.2, Option.isSome_iff_exists.2 ⟨enc, hcreate⟩⟩
    rw [fecDecode_header hnew hcreate hcounts hsize _ (by rw [length_applied, hall]),
      fecDeinterleave_applied hreadable, htake, stripped_padded hcounts.1 hlength]

/-- A damaged message leads to an error or the payload exactly if its data shards do. -/
theorem damage_noticed_iff (h : fecEncode new d k m opt = some E) {E' : Bytes}
    (hlength : E'.length = E.length) (hheader : E'.take fecHeaderLenV2 = E.take fecHeaderLenV2) :
    ∃ r, readShards E' = some r ∧
      (fecDecode new E' = none ∨ fecDecode new E' = some d ↔
        Unharmed d (r.shards.take k).flatten) := by
  obtain ⟨enc, size, shardData, hcreate, hcounts, hsize, -, hall, -, rfl⟩ :=
    exists_of_fecEncode hnew h
  have hheaderLen : (header k m size opt.flags).length = fecHeaderLenV2 := by
    simp [header, fecHeaderLenV2]
  rw [take_left' hheaderLen] at hheader
  rw [length_append, hheaderLen, length_applied, hall] at hlength
  have hbody : (E'.drop fecHeaderLenV2).length = (k + m) * size := by
    rw [length_drop, hlength, Nat.add_sub_cancel_left]
  rw [← take_append_drop fecHeaderLenV2 E', hheader]
  refine ⟨_, readShards_header hcounts hsize opt.flags hbody, ?_⟩
  rw [fecDecode_header hnew hcreate hcounts hsize _ hbody, stripped_unharmed_iff, take_cut,
    flatten_cut]

end RoundTrip

/-- The code of one data and one parity shard. -/
def mirror : Encoder where
  encode
    | [a, b] => if a.length = b.length then some [a, a] else none
    | _ => none
  verify
    | [a, b] => some (a = b)
    | _ => none
  reconstruct
    | [a, b] => some [if a = [] then b else a, if b = [] then a else b]
    | _ => none

def mirrors (k m : Nat) : Option Encoder := if k = 1 ∧ m = 1 then some mirror else none

theorem lawful_mirrors {k m : Nat} (h : mirrors k m = some enc) : Lawful k m enc := by
  obtain ⟨⟨rfl, rfl⟩, henc⟩ := Option.ite_none_right_eq_some.1 h
  cases henc
  have hencode : ∀ {shards out}, mirror.encode shards = some out →
      ∃ a b : Bytes, a.length = b.length ∧ shards = [a, b] ∧ out = [a, a] := by
    intro shards out h
    simp only [mirror] at h
    split at h
    · obtain ⟨hlength, hout⟩ := Option.ite_none_right_eq_some.1 h
      cases hout
      exact ⟨_, _, hlength, rfl, rfl⟩
    · cases h
  constructor
  case accepts =>
    intro shards size hcount _ hall
    obtain ⟨a, b, rfl⟩ := length_eq_two.1 hcount
    simp [mirror, hall a, hall b]
  case fills =>
    intro shards size hcount hsize hall
    obtain ⟨a, b, rfl⟩ := length_eq_two.1 hcount
    have hpresent : ∀ s ∈ [a, b], s ≠ [] := fun s hs => ne_nil_of_length_pos (hall s hs ▸ hsize)
    simp [mirror, hpresent a, hpresent b]
  all_goals
    intro shards out h
    obtain ⟨a, b, hlength, rfl, rfl⟩ := hencode h
    simp [hlength]

theorem payload_decoded_mirrored :
    fecDecode mirrors [2, 1, 1, 5, 0, 3, 1, 0, 7, 0, 0, 0, 0, 1, 0, 7] = some [7] ∧
      ¬∀ d E, fecEncode mirrors d 1 1 ⟨true, 17⟩ = some E → fecDecode mirrors E = some d := by
  refine ⟨(payload_decoded_iff lawful_mirrors).2 (fun _ _ => ?_) [7] _
    (show fecEncode mirrors [7] 1 1 ⟨true, 2⟩ = some _ from rfl), fun hall => ?_⟩
  · decide
  · have hdepth := (payload_decoded_iff lawful_mirrors).1 hall (by decide) rfl
    exact absurd hdepth (by decide)

/-- The depth 17 is written as 16. -/
theorem deep_payload_lost : ∃ E, fecEncode mirrors [1, 2, 3, 4, 5] 1 1 ⟨true, 17⟩ = some E ∧
      fecDecode mirrors E = none := by
  exact ⟨_, rfl, rfl⟩

/-- A length that the data shard does not have is noticed. -/
theorem damage_noticed_length :
    fecDecode mirrors [2, 1, 1, 5, 0, 0, 9, 0, 0, 0, 7, 1, 0, 0, 0, 7] = none ∨
      fecDecode mirrors [2, 1, 1, 5, 0, 0, 9, 0, 0, 0, 7, 1, 0, 0, 0, 7] = some [7] := by
  obtain ⟨r, hread, hiff⟩ := damage_noticed_iff lawful_mirrors
    (show fecEncode mirrors [7] 1 1 ⟨false, 0⟩ =
      some [2, 1, 1, 5, 0, 0, 1, 0, 0, 0, 7, 1, 0, 0, 0, 7] from rfl)
    (show [2, 1, 1, 5, 0, 0, 9, 0, 0, 0, 7, 1, 0, 0, 0, 7].length = _ from rfl) rfl
  cases hread
  exact hiff.2 (.inl (by decide))

/-- A damaged data shard is not accepted and is returned. -/
theorem damaged_data_returned :
    ∃ E E', fecEncode mirrors [7] 1 1 ⟨false, 0⟩ = some E ∧ E'.length = E.length ∧
      E'.take fecHeaderLenV2 = E.take fecHeaderLenV2 ∧
      (∃ r, readShards E' = some r ∧ mirror.verify r.shards = some false) ∧
      fecDecode mirrors E' = some [8] := by
  exact ⟨_, [2, 1, 1, 5, 0, 0, 1, 0, 0, 0, 8, 1, 0, 0, 0, 7], rfl, rfl, rfl, ⟨_, rfl, rfl⟩, rfl⟩

end MeshsatHub.Fec
