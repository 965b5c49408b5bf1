import MeshsatHub.Msgpack.Values

/-!
# What is packed is unpacked again

Every value of the sizes that the decoder reads comes back from its encoding, whatever follows it
(`value_pack`); a non-negative integer of the signed kind comes back as an unsigned one
(`pack_norm`). Every value that is unpacked is of those sizes (`sized_of_value`).
-/

namespace MeshsatHub.Msgpack
open Numerals Readers List
variable {widen : UInt32 → UInt64} {fuel : Nat} {rest : Bytes}

/-- One extension: a first byte that says how long it is or how long its length field is, the
length field, the type and the data. -/
inductive ExtForm : Bytes → Prop
  | fixext (size : Nat) (hsize : size ≤ 4) (body : Bytes) (hbody : body.length = 1 + 2 ^ size) :
      ExtForm ((0xD4 + UInt8.ofNat size) :: body)
  | ext (size : Nat) (hsize : size ≤ 2) (field body : Bytes) (hfield : field.length = 2 ^ size)
      (hmax : readBigEndian field ≤ maxLength) (hbody : body.length = 1 + readBigEndian field) :
      ExtForm ((0xC7 + UInt8.ofNat size) :: (field ++ body))

/-- Lengths are within the limit at every level, and an extension is one. -/
inductive Sized : Value → Prop
  | nil : Sized .nil
  | bool (b : Bool) : Sized (.bool b)
  | int (i : Int64) : Sized (.int i)
  | uint (u : UInt64) : Sized (.uint u)
  | float (bits : UInt64) : Sized (.float bits)
  | str (s : Bytes) (hlen : s.length ≤ maxLength) : Sized (.str s)
  | bin (b : Bytes) (hlen : b.length ≤ maxLength) : Sized (.bin b)
  | array (vs : List Value) (hlen : vs.length ≤ maxLength) (hvs : ∀ v ∈ vs, Sized v) :
      Sized (.array vs)
  | map (kvs : List (Value × Value)) (hlen : kvs.length ≤ maxLength)
      (hkeys : ∀ kv ∈ kvs, Sized kv.1) (hvals : ∀ kv ∈ kvs, Sized kv.2) : Sized (.map kvs)
  | ext (raw : Bytes) (hraw : ExtForm raw) : Sized (.ext raw)

mutual

/-- The value with every non-negative integer of the unsigned kind. -/
def norm : Value → Value
  | .int i => if 0 ≤ i.toInt then .uint (UInt64.ofNat i.toInt.toNat) else .int i
  | .array vs => .array (normAll vs)
  | .map kvs => .map (normPairs kvs)
  | .nil => .nil
  | .bool b => .bool b
  | .uint u => .uint u
  | .float bits => .float bits
  | .str s => .str s
  | .bin b => .bin b
  | .ext raw => .ext raw

def normAll : List Value → List Value
  | [] => []
  | v :: vs => norm v :: normAll vs

def normPairs : List (Value × Value) → List (Value × Value)
  | [] => []
  | (k, v) :: kvs => (norm k, norm v) :: normPairs kvs

end

theorem packAll_eq (vs : List Value) : packAll vs = vs.flatMap pack := by
  induction vs with
  | nil => rfl
  | cons v vs ih => rw [packAll, ih, flatMap_cons]

theorem packPairs_eq (kvs : List (Value × Value)) :
    packPairs kvs = kvs.flatMap fun kv => pack kv.1 ++ pack kv.2 := by
  induction kvs with
  | nil => rfl
  | cons kv kvs ih => rw [packPairs, ih, flatMap_cons]

theorem normAll_eq (vs : List Value) : normAll vs = vs.map norm := by
  induction vs with
  | nil => rfl
  | cons v vs ih => rw [normAll, ih, map_cons]

theorem normPairs_eq (kvs : List (Value × Value)) :
    normPairs kvs = kvs.map fun kv => (norm kv.1, norm kv.2) := by
  induction kvs with
  | nil => rfl
  | cons kv kvs ih => rw [normPairs, ih, map_cons]

theorem headOf_small : (∀ n < 128, headOf (UInt8.ofNat n) = .fixint) ∧
    (∀ n < 32, headOf (UInt8.ofNat (224 + n)) = .negativeFixint) ∧
    (∀ n < 32, headOf (0xA0 ||| UInt8.ofNat n) = .fixstr n) ∧
    (∀ n < 16, headOf (0x90 ||| UInt8.ofNat n) = .fixarray n) ∧
    (∀ n < 16, headOf (0x80 ||| UInt8.ofNat n) = .fixmap n) ∧
    (∀ size < 5, headOf (0xD4 + UInt8.ofNat size) = .fixext size) ∧
    ∀ size < 3, headOf (0xC7 + UInt8.ofNat size) = .ext size := by decide +kernel

theorem headOf_fixint : ∀ n < 128, headOf (UInt8.ofNat n) = .fixint := headOf_small.1

theorem headOf_negativeFixint : ∀ n < 32, headOf (UInt8.ofNat (224 + n)) = .negativeFixint :=
  headOf_small.2.1

theorem headOf_fixstr : ∀ n < 32, headOf (0xA0 ||| UInt8.ofNat n) = .fixstr n :=
  headOf_small.2.2.1

theorem headOf_fixarray : ∀ n < 16, headOf (0x90 ||| UInt8.ofNat n) = .fixarray n :=
  headOf_small.2.2.2.1

theorem headOf_fixmap : ∀ n < 16, headOf (0x80 ||| UInt8.ofNat n) = .fixmap n :=
  headOf_small.2.2.2.2.1

theorem headOf_fixext : ∀ size < 5, headOf (0xD4 + UInt8.ofNat size) = .fixext size :=
  headOf_small.2.2.2.2.2.1

theorem headOf_ext : ∀ size < 3, headOf (0xC7 + UInt8.ofNat size) = .ext size :=
  headOf_small.2.2.2.2.2.2

variable {n size w : Nat} {body xs front : Bytes} {v : Value}

theorem bigEndian_one (h : n < 256) : bigEndian 1 n = [UInt8.ofNat n] := by
  have hone : bigEndian 1 n = [UInt8.ofNat (n % 256)] := rfl
  rw [hone, Nat.mod_eq_of_lt h]

theorem take_append (h : front.length = n) :
    take n (front ++ rest) = .ok (front, rest) := need_append h

theorem length_field (hw : 2 ^ size = w) (hn : n < 256 ^ w) (hmax : n ≤ maxLength) :
    length size (bigEndian w n ++ rest) = .ok (n, rest) := by
  subst hw
  rw [length, andThen_of_ok (take_append (length_bigEndian _ n)), readBigEndian_bigEndian hn,
    if_neg (Nat.not_lt.2 hmax)]

theorem signed_twosComplement {i : Int} (hlow : -(2 ^ (8 * w) / 2) ≤ i)
    (hhigh : i < 0) : signed w (twosComplement w i) = Int64.ofInt i := by
  have hpos : (0 : Int) < 2 ^ (8 * w) := Int.pow_pos (by decide)
  have hcast : ((twosComplement w i : Nat) : Int) = i % ((2 ^ (8 * w) : Nat) : Int) := by
    rw [twosComplement, Int.toNat_of_nonneg (Int.emod_nonneg _ (Int.ne_of_gt hpos))]
    norm_cast
  rw [signed, hcast, Int.emod_bmod, Int.bmod_eq_of_le]
  · exact hlow
  · omega

theorem twosComplement_lt (w : Nat) (i : Int) : twosComplement w i < 256 ^ w := by
  have hpos : (0 : Int) < 2 ^ (8 * w) := Int.pow_pos (by decide)
  have hlt := Int.emod_lt_of_pos i hpos
  have hpow : (256 ^ w : Nat) = 2 ^ (8 * w) := by rw [Nat.pow_mul]
  rw [twosComplement, hpow, Int.toNat_lt (Int.emod_nonneg _ (Int.ne_of_gt hpos))]
  exact hlt

-- The equations of the decoder are worked out here, once, for all the proofs below.
attribute [local simp] value in
theorem value_packUint {u : Nat} (hu : u < 2 ^ 64) :
    value widen (fuel + 1) (packUint u ++ rest) = .ok (.uint (UInt64.ofNat u), rest) := by
  unfold packUint
  have hfield (h : UInt8) (size w : Nat) (hw : 2 ^ size = w) (hhead : headOf h = .uint size)
      (hlt : u < 256 ^ w) : value widen (fuel + 1) (h :: (bigEndian w u ++ rest)) =
      .ok (.uint (UInt64.ofNat u), rest) := by
    subst hw
    simp only [value, hhead]
    rw [map_of_ok (take_append (length_bigEndian _ u)), readBigEndian_bigEndian hlt]
  split_ifs with h1 h2 h3 h4
  · simp only [cons_append, nil_append, value, headOf_fixint u h1]
    rw [UInt8.toNat_ofNat_of_lt' (Nat.lt_trans h1 (by decide))]
  · exact hfield 0xCC 0 1 rfl (by decide) h2
  · exact hfield 0xCD 1 2 rfl (by decide) h3
  · exact hfield 0xCE 2 4 rfl (by decide) h4
  · exact hfield 0xCF 3 8 rfl (by decide) hu

theorem value_packNegative {i : Int64} (hi : i.toInt < 0) :
    value widen (fuel + 1) (packNegative i.toInt ++ rest) = .ok (.int i, rest) := by
  have hmin : -(2 ^ 63) ≤ i.toInt := Int64.le_toInt i
  have hback : Int64.ofInt i.toInt = i := Int64.ofInt_toInt i
  have hfield (h : UInt8) (size w : Nat) (hw : 2 ^ size = w) (hhead : headOf h = .int size)
      (hlow : -(2 ^ (8 * w) / 2) ≤ i.toInt) :
      value widen (fuel + 1) (h :: (bigEndian w (twosComplement w i.toInt) ++ rest)) =
        .ok (.int i, rest) := by
    subst hw
    simp only [value, hhead]
    rw [map_of_ok (take_append (length_bigEndian _ _)),
      readBigEndian_bigEndian (twosComplement_lt _ _), signed_twosComplement hlow hi, hback]
  unfold packNegative
  split_ifs with h1 h2 h3 h4
  · -- One byte is the number and its header at once.
    obtain ⟨n, hn⟩ : ∃ n : Nat, i.toInt + 32 = n := Int.eq_ofNat_of_zero_le (by omega)
    have hvalue : twosComplement 1 i.toInt = 224 + n := by
      simp only [twosComplement]
      omega
    have hlt : 224 + n < 256 := by omega
    have hbyte : bigEndian 1 (twosComplement 1 i.toInt) = [UInt8.ofNat (224 + n)] :=
      (congrArg (bigEndian 1) hvalue).trans (bigEndian_one hlt)
    have hsigned : signed 1 (UInt8.ofNat (224 + n)).toNat = i := by
      rw [UInt8.toNat_ofNat_of_lt' hlt, ← hvalue,
        signed_twosComplement (show -(2 ^ (8 * 1) / 2) ≤ i.toInt by omega) hi, hback]
    rw [hbyte]
    simp only [cons_append, nil_append, value]
    rw [headOf_negativeFixint n (by omega)]
    simp only [hsigned]
  · exact hfield 0xD0 0 1 rfl (by decide) (by omega)
  · exact hfield 0xD1 1 2 rfl (by decide) (by omega)
  · exact hfield 0xD2 2 4 rfl (by decide) (by omega)
  · exact hfield 0xD3 3 8 rfl (by decide) (by omega)

theorem value_field {h : UInt8} {read : Nat → Decoder Value} {tail : Bytes}
    (hvalue : ∀ xs, value widen (fuel + 1) (h :: xs) = (length size).andThen read xs)
    (hw : 2 ^ size = w) (hlt : n < 256 ^ w) (hlen : n ≤ maxLength)
    (htail : read n tail = .ok (v, rest)) :
    value widen (fuel + 1) (h :: (bigEndian w n ++ tail)) = .ok (v, rest) := by
  rw [hvalue, andThen_of_ok (length_field hw hlt hlen), htail]

theorem value_str {s : Bytes} (hlen : s.length ≤ maxLength) :
    value widen (fuel + 1) (strHeader s.length ++ s ++ rest) = .ok (.str s, rest) := by
  have hread : (take s.length).map Value.str (s ++ rest) = .ok (.str s, rest) :=
    map_of_ok (take_append rfl)
  have hmax : maxLength = 2 ^ 31 := rfl
  rw [append_assoc]
  unfold strHeader
  split_ifs with h1 h2 h3
  · simp only [cons_append, nil_append, value, headOf_fixstr _ h1, hread]
  · exact value_field (fun _ => rfl) rfl h2 hlen hread
  · exact value_field (fun _ => rfl) rfl h3 hlen hread
  · exact value_field (fun _ => rfl) rfl (by omega) hlen hread

theorem value_bin {b : Bytes} (hlen : b.length ≤ maxLength) :
    value widen (fuel + 1) (binHeader b.length ++ b ++ rest) = .ok (.bin b, rest) := by
  have hread : (take b.length).map Value.bin (b ++ rest) = .ok (.bin b, rest) :=
    map_of_ok (take_append rfl)
  have hmax : maxLength = 2 ^ 31 := rfl
  rw [append_assoc]
  unfold binHeader
  split_ifs with h1 h2
  · exact value_field (fun _ => rfl) rfl h1 hlen hread
  · exact value_field (fun _ => rfl) rfl h2 hlen hread
  · exact value_field (fun _ => rfl) rfl (by omega) hlen hread

theorem value_array {vs : List Value} (hlen : n ≤ maxLength)
    (hbody : times (value widen fuel) n (body ++ rest) = .ok (vs, rest)) :
    value widen (fuel + 1) (arrayHeader n ++ body ++ rest) = .ok (.array vs, rest) := by
  have hmax : maxLength = 2 ^ 31 := rfl
  rw [append_assoc]
  unfold arrayHeader
  split_ifs with h1 h2
  · simp only [cons_append, nil_append, value, headOf_fixarray _ h1, map_of_ok hbody]
  · exact value_field (fun _ => rfl) rfl h2 hlen (map_of_ok hbody)
  · exact value_field (fun _ => rfl) rfl (by omega) hlen (map_of_ok hbody)

theorem value_map {kvs : List (Value × Value)} (hlen : n ≤ maxLength)
    (hbody : times (both (value widen fuel)) n (body ++ rest) = .ok (kvs, rest)) :
    value widen (fuel + 1) (mapHeader n ++ body ++ rest) = .ok (.map kvs, rest) := by
  have hmax : maxLength = 2 ^ 31 := rfl
  rw [append_assoc]
  unfold mapHeader
  split_ifs with h1 h2
  · simp only [cons_append, nil_append, value, headOf_fixmap _ h1, map_of_ok hbody]
  · exact value_field (fun _ => rfl) rfl h2 hlen (map_of_ok hbody)
  · exact value_field (fun _ => rfl) rfl (by omega) hlen (map_of_ok hbody)

theorem value_ext {raw : Bytes} (hraw : ExtForm raw) :
    value widen (fuel + 1) (raw ++ rest) = .ok (.ext raw, rest) := by
  cases hraw with
  | fixext size hsize body hbody =>
    simp only [cons_append, value, headOf_fixext size (Nat.lt_succ_of_le hsize)]
    rw [map_of_ok (take_append hbody)]
  | ext size hsize field body hfield hmax hbody =>
    have hread : extBody size (field ++ body ++ rest) = .ok (field ++ body, rest) := by
      rw [append_assoc, extBody, andThen_of_ok (take_append hfield),
        if_neg (Nat.not_lt.2 hmax), map_of_ok (take_append hbody)]
    simp only [cons_append, value, headOf_ext size (Nat.lt_succ_of_le hsize)]
    rw [map_of_ok hread]

theorem pack_ne_nil (hv : Sized v) : pack v ≠ [] := by
  cases hv with
  | ext raw hraw | bool hraw => cases hraw <;> simp [pack]
  | int i =>
    simp only [pack, packUint, packNegative]
    split_ifs <;> simp [bigEndian, fixedWidth]
  | uint u =>
    simp only [pack, packUint]
    split_ifs <;> simp
  | str s hlen =>
    simp only [pack, strHeader]
    split_ifs <;> simp
  | bin b hlen =>
    simp only [pack, binHeader]
    split_ifs <;> simp
  | array vs hlen hvs =>
    simp only [pack, arrayHeader]
    split_ifs <;> simp
  | map kvs hlen hkeys hvals =>
    simp only [pack, mapHeader]
    split_ifs <;> simp
  | nil | float bits => simp [pack]

theorem exists_fuel (hv : Sized v) (hfuel : (pack v ++ rest).length ≤ fuel) :
    ∃ f, fuel = f + 1 := by
  have hpos := length_pos_iff.2 (pack_ne_nil hv)
  rw [length_append] at hfuel
  exact ⟨fuel - 1, by omega⟩

theorem length_arrayHeader_pos (n : Nat) : 0 < (arrayHeader n).length := by
  unfold arrayHeader
  split_ifs <;> simp

theorem length_mapHeader_pos (n : Nat) : 0 < (mapHeader n).length := by
  unfold mapHeader
  split_ifs <;> simp

theorem length_body_le {header : Bytes} (hheader : 0 < header.length)
    (hfuel : (header ++ body ++ rest).length ≤ fuel + 1) : (body ++ rest).length ≤ fuel := by
  simp only [length_append] at hfuel ⊢
  omega

theorem value_pack (hv : Sized v) : ∀ fuel rest, (pack v ++ rest).length ≤ fuel →
      value widen fuel (pack v ++ rest) = .ok (norm v, rest) := by
  -- By induction on the value; the fuel is one more than that of the elements.
  induction hv with
    (intro fuel rest hfuel
     obtain ⟨fuel, rfl⟩ := exists_fuel (by constructor <;> assumption) hfuel)
  | nil => rfl
  | bool b => cases b <;> rfl
  | int i =>
    rw [pack, norm]
    have hlt : i.toInt < 2 ^ 63 := Int64.toInt_lt i
    split_ifs with hi
    · exact value_packUint (by omega)
    · exact value_packNegative (Int.not_le.1 hi)
  | uint u => rw [pack, norm, value_packUint u.toNat_lt, UInt64.ofNat_toNat]
  | float bits =>
    have hhead : headOf 0xCB = .float64 := by decide
    simp only [pack, norm, cons_append, value, hhead]
    rw [map_of_ok (take_append (length_bigEndian _ _)), readBigEndian_bigEndian bits.toNat_lt,
      UInt64.ofNat_toNat]
  | str s hlen => exact value_str hlen
  | bin b hlen => exact value_bin hlen
  | array vs hlen hvs ih =>
    rw [pack] at hfuel ⊢
    have hbody := length_body_le (length_arrayHeader_pos _) hfuel
    rw [packAll_eq] at hbody ⊢
    rw [norm, normAll_eq]
    exact value_array hlen (times_flatMap (fun v hv rest' => ih v hv fuel rest') rest hbody)
  | map kvs hlen hkeys hvals ihkeys ihvals =>
    rw [pack] at hfuel ⊢
    have hbody := length_body_le (length_mapHeader_pos _) hfuel
    rw [packPairs_eq] at hbody ⊢
    rw [norm, normPairs_eq]
    refine value_map hlen (times_flatMap (fun kv hkv rest' hrest' => ?_) rest hbody)
    have hsecond : (pack kv.2 ++ rest').length ≤ fuel := by
      simp only [length_append] at hrest' ⊢
      omega
    rw [append_assoc] at hrest'
    exact both_append (ihkeys kv hkv fuel _ hrest') (ihvals kv hkv fuel rest' hsecond)
  | ext raw hraw => exact value_ext hraw

theorem pack_norm (hv : Sized v) : pack (norm v) = pack v := by
  induction hv with
  | int i =>
    rw [norm]
    split_ifs with hi
    · have hlt : i.toInt < 2 ^ 63 := Int64.toInt_lt i
      have hback : (UInt64.ofNat i.toInt.toNat).toNat = i.toInt.toNat :=
        UInt64.toNat_ofNat_of_lt' (show i.toInt.toNat < 2 ^ 64 by omega)
      rw [pack, pack, if_pos hi, hback]
    · rfl
  | array vs hlen hvs ih =>
    rw [norm, pack, pack, normAll_eq, packAll_eq, packAll_eq, length_map, flatMap_map]
    congr 1
    exact flatMap_congr ih
  | map kvs hlen hkeys hvals ihkeys ihvals =>
    rw [norm, pack, pack, normPairs_eq, packPairs_eq, packPairs_eq, length_map, flatMap_map]
    congr 1
    refine flatMap_congr fun kv hkv => ?_
    rw [ihkeys kv hkv, ihvals kv hkv]
  | _ => rfl

theorem of_take_ok (h : take n xs = .ok (front, rest)) : front.length = n := (of_need_ok h).2

theorem of_length_ok (h : length size xs = .ok (n, rest)) : n ≤ maxLength := by
  obtain ⟨b, mid, -, hb⟩ := of_andThen_ok h
  split_ifs at hb with hmax
  cases hb
  exact Nat.not_lt.1 hmax

/-- The sizes in a first byte are small, and tell the first byte of an extension. -/
def Head.fits (h : UInt8) : Head → Bool
  | .fixstr n => n < 32
  | .fixarray n => n < 16
  | .fixmap n => n < 16
  | .fixext size => size ≤ 4 && h = 0xD4 + UInt8.ofNat size
  | .ext size => size ≤ 2 && h = 0xC7 + UInt8.ofNat size
  | _ => true

theorem headOf_fits : ∀ h, (headOf h).fits h := forall_byte (by decide +kernel)

theorem sized_of_value (h : value widen fuel xs = .ok (v, rest)) : Sized v := by
  induction fuel generalizing xs v rest with
  | zero => cases xs <;> cases h
  | succ fuel ih =>
    cases xs with
    | nil => cases h
    | cons head xs =>
      have hfits := headOf_fits head
      have hmax : maxLength = 2 ^ 31 := rfl
      have hpairs : ∀ xs kv rest, both (value widen fuel) xs = .ok (kv, rest) →
          Sized kv.1 ∧ Sized kv.2 := by
        rintro xs ⟨k, v⟩ rest hkv
        obtain ⟨mid, hk, hv⟩ := of_both_ok hkv
        exact ⟨ih hk, ih hv⟩
      simp only [value] at h
      split at h
      next => cases h; exact .uint _
      next => cases h; exact .int _
      next n hhead =>
        obtain ⟨s, hs, rfl⟩ := of_map_ok h
        rw [hhead] at hfits
        have hn : n < 32 := of_decide_eq_true hfits
        exact .str s (by rw [of_take_ok hs]; omega)
      next n hhead =>
        obtain ⟨vs, hvs, rfl⟩ := of_map_ok h
        rw [hhead] at hfits
        have hn : n < 16 := of_decide_eq_true hfits
        obtain ⟨hlen, hall⟩ := of_times_ok (fun xs x rest => ih) hvs
        exact .array vs (by omega) hall
      next n hhead =>
        obtain ⟨kvs, hkvs, rfl⟩ := of_map_ok h
        rw [hhead] at hfits
        have hn : n < 16 := of_decide_eq_true hfits
        obtain ⟨hlen, hall⟩ := of_times_ok hpairs hkvs
        exact .map kvs (by omega) (fun kv hkv => (hall kv hkv).1) fun kv hkv => (hall kv hkv).2
      next => cases h; exact .nil
      next b hhead => cases h; exact .bool b
      next size =>
        obtain ⟨n, mid, hn, hmap⟩ := of_andThen_ok h
        obtain ⟨b, hb, rfl⟩ := of_map_ok hmap
        exact .bin b (by rw [of_take_ok hb]; exact of_length_ok hn)
      next =>
        obtain ⟨b, -, rfl⟩ := of_map_ok h
        exact .float _
      next =>
        obtain ⟨b, -, rfl⟩ := of_map_ok h
        exact .float _
      next size =>
        obtain ⟨b, -, rfl⟩ := of_map_ok h
        exact .uint _
      next size =>
        obtain ⟨b, -, rfl⟩ := of_map_ok h
        exact .int _
      next size =>
        obtain ⟨n, mid, hn, hmap⟩ := of_andThen_ok h
        obtain ⟨s, hs, rfl⟩ := of_map_ok hmap
        exact .str s (by rw [of_take_ok hs]; exact of_length_ok hn)
      next size =>
        obtain ⟨n, mid, hn, hmap⟩ := of_andThen_ok h
        obtain ⟨vs, hvs, rfl⟩ := of_map_ok hmap
        obtain ⟨hlen, hall⟩ := of_times_ok (fun xs x rest => ih) hvs
        exact .array vs (by rw [hlen]; exact of_length_ok hn) hall
      next size =>
        obtain ⟨n, mid, hn, hmap⟩ := of_andThen_ok h
        obtain ⟨kvs, hkvs, rfl⟩ := of_map_ok hmap
        obtain ⟨hlen, hall⟩ := of_times_ok hpairs hkvs
        exact .map kvs (by rw [hlen]; exact of_length_ok hn)
          (fun kv hkv => (hall kv hkv).1) fun kv hkv => (hall kv hkv).2
      next size hhead =>
        obtain ⟨body, hbody, rfl⟩ := of_map_ok h
        rw [hhead] at hfits
        simp only [Head.fits, Bool.and_eq_true, decide_eq_true_eq] at hfits
        obtain ⟨hsize, rfl⟩ := hfits
        exact .ext _ (.fixext size hsize body (of_take_ok hbody))
      next size hhead =>
        obtain ⟨body, hbody, rfl⟩ := of_map_ok h
        rw [hhead] at hfits
        simp only [Head.fits, Bool.and_eq_true, decide_eq_true_eq] at hfits
        obtain ⟨hsize, rfl⟩ := hfits
        obtain ⟨field, mid, hfield, hrest⟩ := of_andThen_ok hbody
        split_ifs at hrest with hlong
        obtain ⟨data, hdata, rfl⟩ := of_map_ok hrest
        exact .ext _ (.ext size hsize field data (of_take_ok hfield) (Nat.not_lt.1 hlong)
          (of_take_ok hdata))
      next => cases h

theorem cuts_take (n : Nat) : Cuts (take n) := cuts_need n

theorem cuts_length (size : Nat) : Cuts (length size) := by
  refine (cuts_take _).andThen fun b => ?_
  split_ifs
  · exact cuts_error _
  · exact cuts_return _

theorem cuts_extBody (size : Nat) : Cuts (extBody size) := by
  refine (cuts_take _).andThen fun field => ?_
  split_ifs
  · exact cuts_error _
  · exact (cuts_take _).map _

theorem cuts_value (fuel : Nat) : Cuts (value widen fuel) := by
  induction fuel with intro xs v rest h
  | zero => cases xs <;> cases h
  | succ fuel ih =>
    cases xs with
    | nil => cases h
    | cons head xs =>
      have hbehind : Cuts fun ys => value widen (fuel + 1) (head :: ys) := by
        simp only [value]
        cases headOf head with
        | fixint | negativeFixint | nil | bool => exact cuts_return _
        | fixstr n => exact (cuts_take n).map _
        | fixarray n => exact (ih.times n).map _
        | fixmap n => exact (ih.both.times n).map _
        | float32 | float64 | uint | int | fixext => exact (cuts_take _).map _
        | bin size | str size => exact (cuts_length size).andThen fun n => (cuts_take n).map _
        | array size => exact (cuts_length size).andThen fun n => (ih.times n).map _
        | map size => exact (cuts_length size).andThen fun n => (ih.both.times n).map _
        | ext size => exact (cuts_extBody size).map _
        | unsupported => exact cuts_error _
      obtain ⟨front, rfl, hmore⟩ := hbehind xs v rest h
      exact ⟨head :: front, rfl, hmore⟩

theorem value_succ (fuel : Nat) : AgreeUpTo fuel (value widen fuel) (value widen (fuel + 1)) := by
  induction fuel with intro xs hxs
  | zero =>
    rw [eq_nil_of_length_eq_zero (Nat.le_zero.1 hxs)]
    rfl
  | succ fuel ih =>
    cases xs with
    | nil => rfl
    | cons head xs =>
      have hlen : xs.length ≤ fuel := Nat.le_of_succ_le_succ hxs
      have hcuts : Cuts (value widen fuel) := cuts_value fuel
      simp only [value]
      cases headOf head with
      | fixarray n => exact (ih.times hcuts n).map _ xs hlen
      | fixmap n => exact ((ih.both hcuts).times hcuts.both n).map _ xs hlen
      | array size =>
        exact (agreeUpTo_self _ _).andThen (cuts_length size)
          (fun n => (ih.times hcuts n).map _) xs hlen
      | map size =>
        exact (agreeUpTo_self _ _).andThen (cuts_length size)
          (fun n => ((ih.both hcuts).times hcuts.both n).map _) xs hlen
      | _ => rfl

theorem value_of_le (h : xs.length ≤ fuel) : value widen fuel xs = value widen xs.length xs := by
  induction fuel, h using Nat.le_induction with
  | base => rfl
  | succ fuel hle ih => exact (value_succ fuel xs hle).symm.trans ih

theorem unpackValue_pack (hv : Sized v) (rest : Bytes) :
    unpackValue widen (pack v ++ rest) = .ok (norm v, (pack v).length) := by
  rw [unpackValue, value_pack hv _ rest (Nat.le_refl _)]
  simp

/-- Every value comes back from its encoding in front of anything and takes up exactly that; and
the encoding of every value that is unpacked stays as it is. -/
theorem codec_agrees (widen : UInt32 → UInt64) : (∀ v rest, Sized v →
      unpackValue widen (pack v ++ rest) = .ok (norm v, (pack v).length)) ∧
    ∀ b v n, unpackValue widen b = .ok (v, n) →
      ∃ v', unpackValue widen (pack v) = .ok (v', (pack v).length) ∧ pack v' = pack v := by
  refine ⟨fun v rest hv => unpackValue_pack hv rest, fun b v n h => ?_⟩
  have hsized : Sized v := by
    unfold unpackValue at h
    split at h
    next v' rest hv' =>
      cases h
      exact sized_of_value hv'
    next => cases h
  refine ⟨norm v, ?_, pack_norm hsized⟩
  have hback : unpackValue widen (pack v ++ []) = .ok (norm v, (pack v).length) :=
    unpackValue_pack hsized []
  rwa [append_nil] at hback

/-- A map from a text to an array with both kinds of integers, a float and an extension. -/
def nestedValue : Value :=
  .map [(.str [0x61], .array [.int (-200), .int 7, .uint 300, .float 1, .ext [0xD4, 1, 2]])]

theorem sized_nestedValue : Sized nestedValue := by
  have hext : ExtForm [0xD4, 1, 2] := .fixext 0 (by decide) [1, 2] rfl
  refine .map _ (by decide) ?_ ?_
  · simp only [mem_singleton, forall_eq]
    exact .str _ (by decide)
  · simp only [mem_singleton, forall_eq]
    refine .array _ (by decide) ?_
    simp only [mem_cons, not_mem_nil, or_false, forall_eq_or_imp, forall_eq]
    exact ⟨.int _, .int _, .uint _, .float _, .ext _ hext⟩

/-- The codec on a nested value, and on what it unpacks to. -/
theorem codec_agrees_nested : Sized nestedValue ∧
      pack nestedValue = [0x81, 0xA1, 0x61, 0x95, 0xD1, 0xFF, 0x38, 7, 0xCD, 1, 0x2C, 0xCB, 0, 0,
        0, 0, 0, 0, 0, 1, 0xD4, 1, 2] ∧
      unpackValue (fun _ => 0) (pack nestedValue ++ [0xC1]) =
        .ok (norm nestedValue, (pack nestedValue).length) ∧
      ∃ v', unpackValue (fun _ => 0) (pack (norm nestedValue)) =
        .ok (v', (pack (norm nestedValue)).length) ∧ pack v' = pack (norm nestedValue) := by
  obtain ⟨hback, hfixed⟩ := codec_agrees fun _ => 0
  have hread := hback nestedValue [0xC1] sized_nestedValue
  exact ⟨sized_nestedValue, by decide +kernel, hread, hfixed _ _ _ hread⟩

end MeshsatHub.Msgpack
