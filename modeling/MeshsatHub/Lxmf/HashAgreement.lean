import MeshsatHub.Lxmf.Messages
import MeshsatHub.Msgpack.Elements

/-!
# Sender and receiver agree on the hash of a message

What is packed is unpacked to the same message, with the hash that the sender signed and a signature
that verifies. Elements behind the first four of the payload can be put there, changed and taken
away. An empty stamp is unpacked to nil.
-/

namespace MeshsatHub.Lxmf
open Msgpack
variable {suite : Suite} {floats : Floats}

/-- Where the payload begins. -/
def frameLen : Nat := 2 * destLen + sigLen

theorem toVector_append {n : Nat} (v : Vector UInt8 n) (rest : Bytes) :
    toVector n (v.toList ++ rest) = v := by
  ext i hi
  have hlen : i < v.toList.length := by
    rw [Vector.length_toList]
    exact hi
  simp [toVector, List.getElem?_append_left hlen, hi]

theorem toVector_take {n k : Nat} (h : n ≤ k) (b : Bytes) :
    toVector n (b.take k) = toVector n b := by
  ext i hi
  have hik : i < k := Nat.lt_of_lt_of_le hi h
  simp [toVector, List.getElem?_take_of_lt hik]

theorem frameOf_append {dest source : Vector UInt8 16} {signature : Bytes}
    (h : signature.length = sigLen) (payload : Bytes) :
    frameOf (dest.toList ++ source.toList ++ signature ++ payload) = ⟨dest, source, signature⟩ := by
  have hdest : dest.toList.length = destLen := Vector.length_toList
  have hboth : (dest.toList ++ source.toList).length = 2 * destLen := by
    rw [List.length_append, Vector.length_toList, Vector.length_toList]
    rfl
  rw [frameOf, Frame.mk.injEq]
  refine ⟨?_, ?_, ?_⟩
  · rw [List.append_assoc, List.append_assoc, toVector_append]
  · rw [List.append_assoc, List.append_assoc, List.drop_left' hdest, toVector_append]
  · rw [List.append_assoc, List.drop_left' hboth, List.take_left' h]

theorem frameOf_take (packed : Bytes) : frameOf (packed.take frameLen) = frameOf packed := by
  rw [frameOf, frameOf, Frame.mk.injEq]
  refine ⟨toVector_take (by decide) packed, ?_, ?_⟩
  · rw [List.drop_take, toVector_take (by decide)]
  · rw [List.drop_take, List.take_take]
    rfl

variable {packed : Bytes} {vs : List Value} {lookup : Option (Vector UInt8 16 → Option Bytes)}
  {m m' : Message} {cost : Int} {now : UInt64} {source : Identity suite}
  {stamper : Option (Vector UInt8 32 → Int → Option Bytes)}

theorem frameOf_eq_of_take_eq {packed' : Bytes} (h : packed'.take frameLen = packed.take frameLen) :
    frameOf packed' = frameOf packed := by
  rw [← frameOf_take packed', h, frameOf_take]

theorem of_elements_ok (h : elements floats packed = .ok vs) : frameLen < packed.length ∧
      unpackValue floats.widen (packed.drop frameLen) =
        .ok (.array vs, (packed.drop frameLen).length) ∧ 4 ≤ vs.length := by
  revert h
  fun_cases elements floats packed with rintro ⟨⟩
  | case4 hlen _ vs' n hvs hok =>
    rw [not_or, not_not, Nat.not_lt] at hok
    obtain ⟨rfl, hfour⟩ := hok
    exact ⟨Nat.not_lt.1 hlen, hvs, hfour⟩

theorem elements_append {frame payload : Bytes} (hframe : frame.length = frameLen)
    (h : unpackValue floats.widen payload = .ok (.array vs, payload.length))
    (hfour : 4 ≤ vs.length) : elements floats (frame ++ payload) = .ok vs := by
  have hpayload : payload ≠ [] := by
    rintro rfl
    cases h
  have hlong : ¬(frame ++ payload).length < 2 * destLen + sigLen + 1 := by
    have hpos := List.length_pos_iff.2 hpayload
    have hlen : frameLen = 2 * destLen + sigLen := rfl
    rw [List.length_append]
    omega
  have hdrop : (frame ++ payload).drop (2 * destLen + sigLen) = payload := List.drop_left' hframe
  rw [elements, if_neg hlong]
  simp only [hdrop, h]
  rw [if_neg]
  rintro (hne | hlt)
  · exact hne rfl
  · exact Nat.not_lt.2 hfour hlt

theorem unpack_of_elements (h : elements floats packed = .ok vs) :
    unpack suite floats packed lookup =
      .ok (received suite floats packed lookup (frameOf packed) vs) := by
  rw [unpack, h]

theorem of_unpack_ok (h : unpack suite floats packed lookup = .ok m) :
    ∃ vs, elements floats packed = .ok vs ∧
      m = received suite floats packed lookup (frameOf packed) vs := by
  unfold unpack at h
  split at h
  next => cases h
  next vs hvs => exact ⟨vs, hvs, (Except.ok.inj h).symm⟩

def Message.verdict (m : Message) : Vector UInt8 32 × Bool × Bool :=
  (m.hash, m.sourceKnown, m.signatureValid)

theorem verdict_received {packed' : Bytes} {f : Frame} {vs' : List Value}
    (h : vs'.take 4 = vs.take 4) : (received suite floats packed' lookup f vs').verdict =
      (received suite floats packed lookup f vs).verdict := by
  have hhash : hashOf f vs' = hashOf f vs := by rw [hashOf, hashOf, h]
  simp only [Message.verdict, received, hhash]

theorem stampOf_norm (v : Option Value) : stampOf (v.map Msgpack.norm) = stampOf v := by
  cases v with
  | none => rfl
  | some v =>
    cases v with
    | int i =>
      rw [Option.map_some, Msgpack.norm]
      split_ifs <;> rfl
    | _ => rfl

structure Message.Readable (m : Message) : Prop where
  title : m.title.length ≤ maxLength
  content : m.content.length ≤ maxLength
  fields : Sized m.fieldsMap
  stamp : ∀ s, m.stamp = some s → s.length ≤ maxLength

theorem of_pack_ok (h : m.pack source now cost stamper = (none, m')) :
    ∃ stamp, m' = { m.hashed suite now with stamp }.signed source := by
  unfold Message.pack at h
  cases stamper with
  | none =>
    cases h
    exact ⟨(m.hashed suite now).stamp, rfl⟩
  | some stamper =>
    simp only at h
    split at h
    · split at h
      next => cases h
      next stamp _ =>
        cases h
        exact ⟨some stamp, rfl⟩
    · cases h
      exact ⟨(m.hashed suite now).stamp, rfl⟩

/-- The elements that a receiver gets. -/
def Message.sent (m : Message) : List Value :=
  [.float m.timestamp, .bin m.title, .bin m.content, Msgpack.norm m.fieldsMap] ++
    (m.stamp.map Value.bin).toList

theorem norm_payloadValue (m : Message) : Msgpack.norm (m.payloadValue true) = .array m.sent := by
  rw [Message.payloadValue, Msgpack.norm, normAll_eq, Message.sent]
  cases m.stamp <;> simp [Msgpack.norm]

theorem Message.Readable.sized (h : m.Readable) (withStamp : Bool) :
    Sized (m.payloadValue withStamp) := by
  have hfour : ∀ v ∈ [.float m.timestamp, .bin m.title, .bin m.content, m.fieldsMap], Sized v := by
    intro v hv
    simp only [List.mem_cons, List.not_mem_nil, or_false] at hv
    obtain rfl | rfl | rfl | rfl := hv
    · exact .float _
    · exact .bin _ h.title
    · exact .bin _ h.content
    · exact h.fields
  have hfifth : ∀ v ∈ if withStamp then (m.stamp.map Value.bin).toList else [], Sized v := by
    intro v hv
    split at hv
    · rw [Option.mem_toList, Option.map_eq_some_iff] at hv
      obtain ⟨s, hs, rfl⟩ := hv
      exact .bin s (h.stamp s hs)
    · cases hv
  refine .array _ ?_ fun v hv => (List.mem_append.1 hv).elim (hfour v) (hfifth v)
  have hmax : maxLength = 2 ^ 31 := rfl
  have hlen : (if withStamp then (m.stamp.map Value.bin).toList else []).length ≤ 1 := by
    split
    · exact Option.length_toList_le
    · exact Nat.zero_le 1
  rw [List.length_append]
  simp only [List.length_cons, List.length_nil]
  omega

theorem hashOf_sent (h : m.Readable) (signature : Bytes) :
    hashOf ⟨m.dest, m.source, signature⟩ m.sent =
      hashedPart m.dest m.source (m.payloadBytes false) := by
  have hnorm : Value.array (m.sent.take 4) = Msgpack.norm (m.payloadValue false) := by
    simp [Message.payloadValue, Msgpack.norm, normAll_eq, Message.sent]
  rw [hashOf, hnorm, pack_norm (h.sized false)]
  rfl

theorem elements_signed (source : Identity suite) (h : m.Readable) :
    elements floats (m.signed source).packed = .ok m.sent := by
  have hframe : (m.dest.toList ++ m.source.toList ++ (m.signed source).signature).length =
      frameLen := by
    rw [List.length_append, List.length_append, Vector.length_toList, Vector.length_toList]
    exact congrArg (16 + 16 + ·) (source.length_sign _)
  have hread : unpackValue floats.widen (m.payloadBytes true) =
      .ok (.array m.sent, (m.payloadBytes true).length) := by
    have hpacked : unpackValue floats.widen (m.payloadBytes true ++ []) = _ :=
      unpackValue_pack (h.sized true) []
    rw [List.append_nil, norm_payloadValue] at hpacked
    exact hpacked
  apply elements_append hframe hread
  rw [Message.sent, List.length_append]
  exact Nat.le_add_right 4 _

theorem elements_of_pack (hpack : m.pack source now cost stamper = (none, m'))
    (hread : m'.Readable) : elements floats m'.packed = .ok m'.sent := by
  obtain ⟨stamp, rfl⟩ := of_pack_ok hpack
  exact elements_signed source ⟨hread.title, hread.content, hread.fields, hread.stamp⟩

theorem stampOf_sent (m : Message) : stampOf m.sent[4]? = m.stamp.filter (· ≠ []) := by
  rw [Message.sent]
  cases m.stamp with
  | none => rfl
  | some s => cases s <;> rfl

theorem received_signed {lookup : Vector UInt8 16 → Option Bytes} (h : m.Readable)
    (hhash : m.hash = suite.sha256 (hashedPart m.dest m.source (m.payloadBytes false)))
    (hkey : lookup m.source = some source.sigPub) (packed : Bytes) :
    (received suite floats packed (some lookup)
      ⟨m.dest, m.source, (m.signed source).signature⟩ m.sent).verdict = (m.hash, true, true) := by
  have hcovered := hashOf_sent h (m.signed source).signature
  have hverified := source.verify_sign
    (hashedPart m.dest m.source (m.payloadBytes false) ++ m.hash.toList)
  have hknown : keyOf (some lookup) ⟨m.dest, m.source, (m.signed source).signature⟩ =
      some source.sigPub := hkey
  simp only [Message.verdict, received, hcovered, hknown, signedPart, ← hhash]
  exact congrArg (fun valid => (m.hash, true, valid)) hverified

theorem unpack_pack {lookup : Vector UInt8 16 → Option Bytes}
    (hpack : m.pack source now cost stamper = (none, m')) (hread : m'.Readable)
    (hkey : lookup m.source = some source.sigPub) :
    ∃ r, unpack suite floats m'.packed (some lookup) = .ok r ∧
      r.dest = m.dest ∧ r.source = m.source ∧ r.title = m.title ∧ r.content = m.content ∧
      r.stamp = m'.stamp.filter (· ≠ []) ∧ r.signature = m'.signature ∧
      r.timestamp = m'.timestamp ∧ r.fields = Msgpack.norm m.fieldsMap ∧
      r.verdict = (m'.hash, true, true) := by
  have helements : elements floats m'.packed = .ok m'.sent := elements_of_pack hpack hread
  obtain ⟨stamp, rfl⟩ := of_pack_ok hpack
  -- Setting the timestamp leaves the other parts of the message as they are.
  have hkept : (m.hashed suite now).dest = m.dest ∧ (m.hashed suite now).source = m.source ∧
      (m.hashed suite now).title = m.title ∧ (m.hashed suite now).content = m.content ∧
      (m.hashed suite now).fieldsMap = m.fieldsMap := by
    simp only [Message.hashed]
    split <;> exact ⟨rfl, rfl, rfl, rfl, rfl⟩
  obtain ⟨hdest, hsource, htitle, hcontent, hfields⟩ := hkept
  generalize hsent : { m.hashed suite now with stamp } = sent at hread helements ⊢
  have hhash : sent.hash =
      suite.sha256 (hashedPart sent.dest sent.source (sent.payloadBytes false)) := by
    subst hsent
    rfl
  have hsized : sent.Readable := ⟨hread.title, hread.content, hread.fields, hread.stamp⟩
  have hframe : frameOf (sent.signed source).packed =
      ⟨sent.dest, sent.source, (sent.signed source).signature⟩ :=
    frameOf_append (source.length_sign _) _
  have hkey' : lookup sent.source = some source.sigPub := by
    subst hsent
    rw [← hkey, ← hsource]
  refine ⟨_, unpack_of_elements helements, ?_⟩
  rw [hframe]
  refine ⟨?_, ?_, ?_, ?_, stampOf_sent sent, rfl, rfl, ?_, received_signed hsized hhash hkey' _⟩
  · subst hsent; exact hdest
  · subst hsent; exact hsource
  · subst hsent; exact htitle
  · subst hsent; exact hcontent
  · subst hsent; exact congrArg Msgpack.norm hfields

/-- Behind the bytes of the first four elements of an accepted message any elements can stand;
hash and verdict stay as they are, and the stamp is the first of these. -/
theorem exists_raw_of_unpack (h : unpack suite floats packed lookup = .ok m) :
    ∃ header raw others, packed = packed.take frameLen ++ (header ++ raw ++ others) ∧
      ∀ tail : List Value, (∀ v ∈ tail, Sized v) → 4 + tail.length ≤ maxLength →
        ∃ m', unpack suite floats (packed.take frameLen ++ packBehind 4 raw tail) lookup = .ok m' ∧
          m'.verdict = m.verdict ∧ m'.stamp = stampOf tail.head? := by
  obtain ⟨vs, hvs, rfl⟩ := of_unpack_ok h
  obtain ⟨hlong, hread, hfour⟩ := of_elements_ok hvs
  obtain ⟨header, raw, others, hparts, htails⟩ := exists_raw_of_array hread hfour
  rw [List.take_length] at hparts
  have hlen : (packed.take frameLen).length = frameLen := by
    rw [List.length_take]
    omega
  have hfirst : (vs.take 4).length = 4 := by
    rw [List.length_take]
    omega
  refine ⟨header, raw, others, ?_, fun tail htail hmax => ?_⟩
  · rw [← hparts, List.take_append_drop]
  · have haccepted : elements floats (packed.take frameLen ++ packBehind 4 raw tail) =
        .ok (vs.take 4 ++ tail.map Msgpack.norm) := by
      apply elements_append hlen (htails tail htail hmax)
      rw [List.length_append, hfirst]
      exact Nat.le_add_right ..
    have hframe : frameOf (packed.take frameLen ++ packBehind 4 raw tail) = frameOf packed :=
      frameOf_eq_of_take_eq (List.take_left' hlen)
    refine ⟨_, unpack_of_elements haccepted, ?_, ?_⟩
    · rw [hframe]
      apply verdict_received
      rw [List.take_left' hfirst]
    · have hfifth : (vs.take 4 ++ tail.map Msgpack.norm)[4]? = tail.head?.map Msgpack.norm := by
        rw [List.getElem?_append_right (Nat.le_of_eq hfirst), hfirst, Nat.sub_self,
          List.getElem?_map, List.head?_eq_getElem?]
      exact (congrArg stampOf hfifth).trans (stampOf_norm _)

/-- Sender and receiver agree: a message that is packed, of sizes that the decoder reads, is
unpacked to the same message, hash and good signature; behind the first four elements of an
accepted message any elements can stand; and accepted messages with the same frame and the same
first four elements have the same hash and verdict. -/
theorem hash_agrees (suite : Suite) (floats : Floats) :
    (∀ (source : Identity suite) (now : UInt64) (cost : Int)
        (stamper : Option (Vector UInt8 32 → Int → Option Bytes)) (m m' : Message)
        (lookup : Vector UInt8 16 → Option Bytes),
      m.pack source now cost stamper = (none, m') → m'.Readable →
        lookup m.source = some source.sigPub →
        ∃ r, unpack suite floats m'.packed (some lookup) = .ok r ∧
          r.dest = m.dest ∧ r.source = m.source ∧ r.title = m.title ∧ r.content = m.content ∧
          r.stamp = m'.stamp.filter (· ≠ []) ∧ r.signature = m'.signature ∧
          r.timestamp = m'.timestamp ∧ r.fields = Msgpack.norm m.fieldsMap ∧
          r.verdict = (m'.hash, true, true)) ∧
    (∀ (packed : Bytes) (m : Message) (lookup : Option (Vector UInt8 16 → Option Bytes)),
      unpack suite floats packed lookup = .ok m →
        ∃ header raw others, packed = packed.take frameLen ++ (header ++ raw ++ others) ∧
          ∀ tail : List Value, (∀ v ∈ tail, Sized v) → 4 + tail.length ≤ maxLength →
            ∃ m', unpack suite floats (packed.take frameLen ++ packBehind 4 raw tail) lookup =
                .ok m' ∧ m'.verdict = m.verdict ∧ m'.stamp = stampOf tail.head?) ∧
    ∀ (packed packed' : Bytes) (vs vs' : List Value) (m m' : Message)
        (lookup : Option (Vector UInt8 16 → Option Bytes)),
      elements floats packed = .ok vs → elements floats packed' = .ok vs' →
        packed'.take frameLen = packed.take frameLen → vs'.take 4 = vs.take 4 →
        unpack suite floats packed lookup = .ok m →
        unpack suite floats packed' lookup = .ok m' → m'.verdict = m.verdict := by
  refine ⟨fun source now cost stamper m m' lookup => unpack_pack,
    fun packed m lookup => exists_raw_of_unpack, ?_⟩
  intro packed packed' vs vs' m m' lookup hvs hvs' hframe hfour hm hm'
  rw [unpack_of_elements hvs] at hm
  rw [unpack_of_elements hvs', frameOf_eq_of_take_eq hframe] at hm'
  rw [← Except.ok.inj hm, ← Except.ok.inj hm']
  exact verdict_received hfour

/-- A suite that tells data apart by their length and keys by their first byte. -/
def lengthSuite : Suite where
  sha256 data := Vector.replicate 32 (UInt8.ofNat data.length)
  verifySignature pub data signature :=
    signature = List.replicate sigLen (pub.headD 0 + UInt8.ofNat data.length)

def lengthIdentity : Identity lengthSuite where
  sigPub := [7]
  sign data := List.replicate sigLen (7 + UInt8.ofNat data.length)
  length_sign _ := List.length_replicate
  verify_sign _ := decide_eq_true rfl

def zeroFloats : Floats where
  widen _ := 0
  ofInt _ := 0

def draft (fields : Value) : Message where
  dest := Vector.replicate 16 1
  source := Vector.replicate 16 2
  timestamp := 0
  title := [0x68, 0x69]
  content := [0x79, 0x6F]
  fields
  stamp := none
  hash := Vector.replicate 32 0
  signature := []
  packed := []
  signatureValid := false
  sourceKnown := false

/-- A draft packed with a stamp, or without where none is asked for. -/
def packedDraft (fields : Value) (cost : Int) : Option PackError × Message :=
  (draft fields).pack lengthIdentity 5 cost (some fun _ _ => some [9, 9])

def smallFields : Value := .map [(.uint 1, .int 7)]

theorem readable_packedDraft (cost : Int) : (packedDraft smallFields cost).2.Readable := by
  have hsized : Sized smallFields := by
    refine .map _ (by decide) ?_ ?_
    · simp only [List.mem_singleton, forall_eq]
      exact .uint 1
    · simp only [List.mem_singleton, forall_eq]
      exact .int 7
  unfold packedDraft Message.pack
  simp only
  split_ifs
  · exact ⟨by decide, by decide, hsized, by rintro s ⟨⟩; decide⟩
  · exact ⟨by decide, by decide, hsized, nofun⟩

theorem elements_packedDraft (cost : Int) :
    elements zeroFloats (packedDraft smallFields cost).2.packed =
      .ok (packedDraft smallFields cost).2.sent := by
  have hnone : (packedDraft smallFields cost).1 = none := by
    unfold packedDraft Message.pack
    simp only
    split_ifs <;> rfl
  have hpack : packedDraft smallFields cost = (none, (packedDraft smallFields cost).2) :=
    Prod.ext hnone rfl
  exact elements_of_pack hpack (readable_packedDraft cost)

theorem hash_agrees_stamped :
    (packedDraft smallFields 1).1 = none ∧ (packedDraft smallFields 0).1 = none ∧
    ∃ r r' raw m', unpack lengthSuite zeroFloats (packedDraft smallFields 1).2.packed
        (some fun _ => some [7]) = .ok r ∧
      unpack lengthSuite zeroFloats (packedDraft smallFields 0).2.packed
        (some fun _ => some [7]) = .ok r' ∧
      r.title = [0x68, 0x69] ∧ r.stamp = some [9, 9] ∧ r'.stamp = none ∧
      r.verdict = ((packedDraft smallFields 1).2.hash, true, true) ∧ r'.verdict = r.verdict ∧
      unpack lengthSuite zeroFloats ((packedDraft smallFields 1).2.packed.take frameLen ++
        packBehind 4 raw [.bin [5]]) (some fun _ => some [7]) = .ok m' ∧
      m'.verdict = r.verdict ∧ m'.stamp = some [5] := by
  obtain ⟨hback, htails, hsame⟩ := hash_agrees lengthSuite zeroFloats
  obtain ⟨r, hr, -, -, htitle, -, hstamp, -, -, -, hverdict⟩ :=
    hback lengthIdentity 5 1 (some fun _ _ => some [9, 9]) (draft smallFields) _
      (fun _ => some [7]) rfl (readable_packedDraft 1) rfl
  obtain ⟨r', hr', -, -, -, -, hstamp', -⟩ :=
    hback lengthIdentity 5 0 (some fun _ _ => some [9, 9]) (draft smallFields) _
      (fun _ => some [7]) rfl (readable_packedDraft 0) rfl
  obtain ⟨header, raw, others, -, hany⟩ := htails _ r _ hr
  have hbin : ∀ v ∈ [Value.bin [5]], Sized v := by
    simp only [List.mem_singleton, forall_eq]
    exact .bin [5] (by decide)
  obtain ⟨m', hm', hkept, hnew⟩ := hany [.bin [5]] hbin (by decide)
  have hframe : (packedDraft smallFields 0).2.packed.take frameLen =
      (packedDraft smallFields 1).2.packed.take frameLen := by decide +kernel
  have hboth := hsame (packedDraft smallFields 1).2.packed (packedDraft smallFields 0).2.packed
    (packedDraft smallFields 1).2.sent (packedDraft smallFields 0).2.sent r r' _
    (elements_packedDraft 1) (elements_packedDraft 0) hframe rfl hr hr'
  exact ⟨rfl, rfl, r, r', raw, m', hr, hr', htitle, hstamp, hstamp', hverdict, hboth, hm', hkept,
    hnew⟩

/-- An extension without any bytes in the fields is packed to nothing, and the message that comes
out of it is not accepted. -/
theorem bare_extension_is_not_unpacked : (packedDraft (.map [(.uint 1, .ext [])]) 0).1 = none ∧
      unpack lengthSuite zeroFloats (packedDraft (.map [(.uint 1, .ext [])]) 0).2.packed
        (some fun _ => some [7]) = .error (.payload .malformed) := by
  refine ⟨rfl, ?_⟩
  have hlong : ¬(packedDraft (.map [(.uint 1, .ext [])]) 0).2.packed.length <
      2 * destLen + sigLen + 1 := by decide +kernel
  -- The payload ends with the key 1 of the fields.
  have hpayload : (packedDraft (.map [(.uint 1, .ext [])]) 0).2.packed.drop
      (2 * destLen + sigLen) = [0x94, 0xCB, 0, 0, 0, 0, 0, 0, 0, 5, 0xC4, 2, 0x68, 0x69,
        0xC4, 2, 0x79, 0x6F, 0x81, 1] := by decide +kernel
  have hfails : unpackValue zeroFloats.widen [0x94, 0xCB, 0, 0, 0, 0, 0, 0, 0, 5, 0xC4, 2, 0x68,
      0x69, 0xC4, 2, 0x79, 0x6F, 0x81, 1] = .error .malformed := rfl
  rw [unpack, elements, if_neg hlong]
  simp only [hpayload, hfails]

end MeshsatHub.Lxmf
