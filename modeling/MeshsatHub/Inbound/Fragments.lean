import MeshsatHub.Inbound.Payloads

/-!
# Fragments and their reassembly

A message that does not fit one frame is cut into at most sixteen fragments, which the receiver adds
in any order, with repetitions and between fragments of other messages. `Collecting` says what is
pending after some of them. The sizes are without the bounds of Go's `int`; a nil slice is `none`.
-/

namespace MeshsatHub.Inbound
open List Function Prod

def headerSize : Nat := 2

/-- The fragments of one message; the index has four bits. -/
def maxFragments : Nat := 16

def encodeHeader (fragIndex fragTotal msgID : UInt8) : UInt8 × UInt8 :=
  (((fragIndex &&& 0x0F) <<< 4) ||| ((fragTotal - 1) &&& 0x0F), msgID)

variable (data : Bytes)

/-- The bytes of a message from one index on, as many as one fragment carries. -/
def piece (fragPayload i : Nat) : Bytes :=
  (data.take (min (i * fragPayload + fragPayload) data.length)).drop (i * fragPayload)

/-- One fragment of `nFrags`. -/
def framed (fragPayload nFrags : Nat) (msgID : UInt8) (i : Nat) : Bytes :=
  let hdr := encodeHeader (UInt8.ofNat i) (UInt8.ofNat nFrags) msgID
  hdr.1 :: hdr.2 :: piece data fragPayload i

/-- Cut a message into fragments; none if it fits one frame. A message that sixteen fragments
do not carry is cut off. -/
def fragment (mtu : Int) (msgID : UInt8) : Option (List Bytes) :=
  if (data.length : Int) ≤ mtu then none
  else if mtu - headerSize ≤ 0 then none
  else
    let fragPayload := (mtu - headerSize).toNat
    let nFrags := (data.length + fragPayload - 1) / fragPayload
    if maxFragments < nFrags then
      some ((List.range maxFragments).map
        (framed (data.take (maxFragments * fragPayload)) fragPayload maxFragments msgID))
    else some ((List.range nFrags).map (framed data fragPayload nFrags msgID))

theorem piece_eq (fragPayload i : Nat) :
    piece data fragPayload i = (data.drop (i * fragPayload)).take fragPayload := by
  unfold piece
  rw [← take_take, take_of_length_le (le_refl data.length), drop_take, Nat.add_sub_cancel_left]

theorem flatten_pieces (fragPayload n : Nat) :
    ((List.range n).map (piece data fragPayload)).flatten = data.take (n * fragPayload) := by
  induction n with
  | zero => simp
  | succ n ih =>
    rw [range_succ, map_append, flatten_append, ih, map_singleton,
      flatten_singleton, piece_eq, Nat.succ_mul, take_add]

variable {i : Nat} {frags : List Bytes}

theorem decodeHeader_encodeHeader {n : Nat} (hi : i < n) (hn : n ≤ maxFragments) (msgID : UInt8) :
    decodeHeader (encodeHeader (UInt8.ofNat i) (UInt8.ofNat n) msgID).1
        (encodeHeader (UInt8.ofNat i) (UInt8.ofNat n) msgID).2 =
      (UInt8.ofNat i, UInt8.ofNat n, msgID) := by
  have hall : ∀ n ≤ maxFragments, ∀ i < n,
      (((UInt8.ofNat i &&& 0x0F) <<< 4) ||| ((UInt8.ofNat n - 1) &&& 0x0F)) >>> 4 = UInt8.ofNat i ∧
        ((((UInt8.ofNat i &&& 0x0F) <<< 4) ||| ((UInt8.ofNat n - 1) &&& 0x0F)) &&& 0x0F) + 1 =
          UInt8.ofNat n := by
    decide +kernel
  obtain ⟨hindex, htotal⟩ := hall n hn i hi
  simp only [decodeHeader, encodeHeader, hindex, htotal]

theorem toNat_ofNat (h : i ≤ maxFragments) : (UInt8.ofNat i).toNat = i := by
  rw [UInt8.toNat_ofNat']
  simp only [maxFragments] at h
  omega

theorem fragment_eq_some {data : Bytes} {mtu : Int} {msgID : UInt8}
    (h : fragment data mtu msgID = some frags) :
    ∃ (fragPayload n : Nat) (kept : Bytes), mtu = fragPayload + headerSize ∧
      kept = data.take (maxFragments * fragPayload) ∧ 0 < n ∧ n ≤ maxFragments ∧
      (n - 1) * fragPayload < kept.length ∧ kept.length ≤ n * fragPayload ∧
      frags = (List.range n).map (framed kept fragPayload n msgID) := by
  unfold fragment at h
  split at h
  · cases h
  · split at h
    · cases h
    next hbig hpos =>
      obtain ⟨fragPayload, hmtu⟩ : ∃ p : Nat, mtu - headerSize = p :=
        ⟨(mtu - headerSize).toNat, by omega⟩
      simp only [hmtu, Int.toNat_natCast] at h hpos
      have hp : 0 < fragPayload := by omega
      have hdata : fragPayload < data.length := by
        simp only [headerSize] at hmtu
        omega
      have hceil := Nat.div_add_mod (data.length + fragPayload - 1) fragPayload
      have hmod := Nat.mod_lt (data.length + fragPayload - 1) hp
      split at h
      next hmany =>
        cases h
        have hlong : maxFragments * fragPayload ≤ data.length := by
          have := Nat.mul_le_mul_right fragPayload hmany
          rw [Nat.succ_mul, Nat.mul_comm (_ / _)] at this
          omega
        refine ⟨fragPayload, _, _, by omega, rfl, by decide, le_rfl, ?_, ?_, rfl⟩
        · rw [length_take_of_le hlong]
          exact Nat.mul_lt_mul_of_pos_right (by decide) hp
        · rw [length_take_of_le hlong]
      next hfew =>
        cases h
        rw [Nat.mul_comm] at hceil
        have hlen : data.length ≤ (data.length + fragPayload - 1) / fragPayload * fragPayload := by
          omega
        refine ⟨fragPayload, _, data, by omega, ?_, ?_, Nat.not_lt.1 hfew, ?_, hlen, rfl⟩
        · rw [take_of_length_le]
          exact hlen.trans (Nat.mul_le_mul_right _ (Nat.not_lt.1 hfew))
        · exact Nat.div_pos (by omega) hp
        · rw [Nat.sub_mul]
          omega

/-- One call of `addFragment`. -/
structure Call where
  deviceID : String
  data : Bytes
  now : Nat

/-- The answers to a sequence of calls, and what is pending after them. -/
def addFragments (r : Reassembler) : List Call → List Added × Reassembler
  | [] => ([], r)
  | c :: calls =>
    let (answer, r) := addFragment r c.deviceID c.data c.now
    let (answers, r) := addFragments r calls
    (answer :: answers, r)

def Call.Elsewhere (c : Call) (deviceID : String) (msgID : UInt8) : Prop :=
  c.deviceID ≠ deviceID ∨ ∀ b0 payload, c.data ≠ b0 :: msgID :: payload

theorem addFragment_elsewhere {r : Reassembler} {c : Call} {deviceID : String} {msgID : UInt8}
    (h : c.Elsewhere deviceID msgID) :
    (addFragment r c.deviceID c.data c.now).2 deviceID msgID = r deviceID msgID := by
  by_cases hdevice : c.deviceID = deviceID
  · have hdata : ∀ b0 payload, c.data ≠ b0 :: msgID :: payload :=
      h.resolve_left fun hne => hne hdevice
    unfold addFragment
    split
    next b0 b1 payload heq =>
      have hid : msgID ≠ b1 := by
        rintro rfl
        exact hdata _ _ heq
      have hput : ∀ pm, r.put c.deviceID b1 pm deviceID msgID = r deviceID msgID := by
        intro pm
        rw [hdevice, Reassembler.put, update_self, update_of_ne hid]
      simp only
      split
      · exact hput _
      · split <;> exact hput _
    next => rfl
  · rw [addFragment_other (fun heq => hdevice heq.symm)]

/-- The fragments with the indices in `got` have arrived of the message with these pieces. -/
def Collecting (pieces : List Bytes) (got : Finset Nat) : Option PendingMessage → Prop
  | none => got = ∅
  | some pm =>
    pm.total = pieces.length ∧ pm.received = got.card ∧ got ⊆ Finset.range pieces.length ∧
      ∀ j, pm.fragments[j]? = pieces[j]?.map fun p => if j ∈ got then some p else none

variable {r : Reassembler} {deviceID : String} {msgID : UInt8} {got : Finset Nat}
  {pieces : List Bytes} {pm : PendingMessage}

theorem Collecting.getD {pm : Option PendingMessage} (h : Collecting pieces got pm) (now : Nat) :
    Collecting pieces got
      (some (pm.getD ⟨List.replicate pieces.length none, pieces.length, 0, now⟩)) := by
  cases pm with
  | some pm => exact h
  | none =>
    obtain rfl : got = ∅ := h
    refine ⟨rfl, rfl, Finset.empty_subset _, fun j => ?_⟩
    rw [Option.getD_none, getElem?_replicate]
    by_cases hj : j < pieces.length
    · rw [if_pos hj, getElem?_eq_getElem hj]
      simp
    · rw [if_neg hj, getElem?_eq_none (by omega)]
      rfl

theorem Collecting.subset {pm : Option PendingMessage} (h : Collecting pieces got pm) :
    got ⊆ Finset.range pieces.length := by
  cases pm with
  | some pm => exact h.2.2.1
  | none =>
    obtain rfl : got = ∅ := h
    exact Finset.empty_subset _

section
variable (h : Collecting pieces got (some pm)) {payload : Bytes}
include h

theorem Collecting.add (hi : pieces[i]? = some payload) :
    Collecting pieces (insert i got) (some (pm.add i payload)) := by
  obtain ⟨htotal, hreceived, hsub, hparts⟩ := h
  obtain ⟨hlt, -⟩ := List.getElem?_eq_some_iff.1 hi
  have hpart : pm.fragments[i]? = some (if i ∈ got then some payload else none) := by
    rw [hparts i, hi, Option.map_some]
  refine ⟨htotal, ?_, ?_, fun j => ?_⟩
  · -- The counter grows exactly with a fragment that was not there.
    simp only [PendingMessage.add, hpart, hreceived]
    by_cases hgot : i ∈ got
    · simp [hgot]
    · simp [hgot, Finset.card_insert_of_notMem hgot]
  · exact Finset.insert_subset (Finset.mem_range.2 hlt) hsub
  · simp only [PendingMessage.add, getElem?_set]
    by_cases hij : i = j
    · subst hij
      have hlen : i < pm.fragments.length := (List.getElem?_eq_some_iff.1 hpart).1
      rw [if_pos rfl, if_pos hlen, hi]
      simp
    · rw [if_neg hij, hparts j]
      simp [Finset.mem_insert, Ne.symm hij]

theorem Collecting.whole (hall : got = Finset.range pieces.length) :
    (pm.fragments.flatMap fun f => f.getD []) = pieces.flatten := by
  subst hall
  have hfragments : pm.fragments = pieces.map some := by
    apply ext_getElem?
    intro j
    rw [h.2.2.2 j, getElem?_map]
    by_cases hj : j < pieces.length
    · simp [hj]
    · rw [getElem?_eq_none (by omega)]
      rfl
  rw [hfragments, flatMap_map, flatMap_def]
  simp

theorem Collecting.received_lt_iff : pm.received < pm.total ↔ got ≠ Finset.range pieces.length := by
  obtain ⟨htotal, hreceived, hsub, -⟩ := h
  rw [htotal, hreceived]
  constructor
  · rintro hlt rfl
    rw [Finset.card_range] at hlt
    omega
  · intro hne
    have := Finset.card_lt_card (Finset.ssubset_iff_subset_ne.2 ⟨hsub, hne⟩)
    rwa [Finset.card_range] at this

end

variable {data : Bytes} {fragPayload n : Nat}

theorem addFragment_framed (hn : n ≤ maxFragments)
    (h : Collecting ((List.range n).map (piece data fragPayload)) got (r deviceID msgID))
    (hi : i < n) (now : Nat) :
    if insert i got = Finset.range n then
      (addFragment r deviceID (framed data fragPayload n msgID i) now).1 =
          .whole (data.take (n * fragPayload)) ∧
        (addFragment r deviceID (framed data fragPayload n msgID i) now).2 deviceID msgID = none
    else
      (addFragment r deviceID (framed data fragPayload n msgID i) now).1 = .waiting ∧
        Collecting ((List.range n).map (piece data fragPayload)) (insert i got)
          ((addFragment r deviceID (framed data fragPayload n msgID i) now).2 deviceID msgID) := by
  have hlen : ((List.range n).map (piece data fragPayload)).length = n := by simp
  have hpiece : ((List.range n).map (piece data fragPayload))[i]? =
      some (piece data fragPayload i) := by
    rw [getElem?_map, getElem?_range hi, Option.map_some]
  have hbegun := h.getD now
  rw [hlen] at hbegun
  have hadded := hbegun.add hpiece
  have htotal := hbegun.1
  have hlt := hadded.received_lt_iff
  rw [hlen] at htotal hlt
  have hput : ∀ pm, r.put deviceID msgID pm deviceID msgID = pm := by
    intro pm
    rw [Reassembler.put, update_self, update_self]
  simp only [framed, addFragment, decodeHeader_encodeHeader hi hn, toNat_ofNat hn,
    toNat_ofNat (hi.le.trans hn)]
  rw [htotal, if_neg (Nat.not_le.2 hi)]
  split
  next hall =>
    rw [if_neg (fun hc => hlt.1 hc hall)]
    refine ⟨?_, hput _⟩
    rw [hadded.whole (hlen.symm ▸ hall), flatten_pieces]
  next hall =>
    rw [if_pos (hlt.2 hall)]
    refine ⟨rfl, ?_⟩
    dsimp only
    rw [hput]
    exact hadded

theorem framed_injective (hn : n ≤ maxFragments) {j : Nat} (hi : i < n) (hj : j < n)
    (h : framed data fragPayload n msgID i = framed data fragPayload n msgID j) : i = j := by
  have hhead := (List.cons.inj h).1
  have hi' := decodeHeader_encodeHeader hi hn msgID
  have hj' := decodeHeader_encodeHeader hj hn msgID
  rw [hhead] at hi'
  have heq : UInt8.ofNat i = UInt8.ofNat j := congrArg fst (hi'.symm.trans hj')
  rw [← toNat_ofNat (hi.le.trans hn), ← toNat_ofNat (hj.le.trans hn), heq]

def Mixed (deviceID : String) (msgID : UInt8) (frags : List Bytes) (calls : List Call) : Prop :=
  ∀ c ∈ calls, (c.deviceID = deviceID ∧ c.data ∈ frags) ∨ c.Elsewhere deviceID msgID

theorem addFragments_waiting (hn : n ≤ maxFragments) {m : Nat} (hm : m < n) {calls : List Call}
    (hmissing : ∀ c ∈ calls, c.deviceID = deviceID → c.data ≠ framed data fragPayload n msgID m)
    (hmixed : Mixed deviceID msgID ((List.range n).map (framed data fragPayload n msgID)) calls)
    (hgot : m ∉ got)
    (h : Collecting ((List.range n).map (piece data fragPayload)) got (r deviceID msgID)) :
    (∀ ca ∈ calls.zip (addFragments r calls).1,
      ¬ ca.1.Elsewhere deviceID msgID → ca.2 = .waiting) ∧
    ∃ got', Collecting ((List.range n).map (piece data fragPayload)) got'
        ((addFragments r calls).2 deviceID msgID) ∧ m ∉ got' ∧
      ∀ i < n, i ∈ got' ↔ i ∈ got ∨ ∃ c ∈ calls, c.deviceID = deviceID ∧
        c.data = framed data fragPayload n msgID i := by
  -- One call: it is elsewhere, or it is answered with nothing and adds its index.
  induction calls generalizing r got with
  | nil => exact ⟨by simp [addFragments], got, h, hgot, by simp⟩
  | cons c calls ih =>
    have hrest := fun r got => @ih r got (fun d hd => hmissing d (mem_cons_of_mem _ hd))
      (fun d hd => hmixed d (mem_cons_of_mem _ hd))
    simp only [addFragments, zip_cons_cons, forall_mem_cons, exists_mem_cons_iff]
    by_cases helse : c.Elsewhere deviceID msgID
    · have hkeep := @addFragment_elsewhere r c deviceID msgID helse
      rw [← hkeep] at h
      obtain ⟨hanswers, got', hcollecting, hnot, hiff⟩ := hrest _ _ hgot h
      refine ⟨⟨fun hc => absurd helse hc, hanswers⟩, got', hcollecting, hnot, fun i hi => ?_⟩
      rw [hiff i hi]
      have hown : ¬ (c.deviceID = deviceID ∧ c.data = framed data fragPayload n msgID i) := by
        rintro ⟨hdevice, hdata⟩
        obtain hne | hne := helse
        · exact hne hdevice
        · exact hne _ _ hdata
      simp only [hown, false_or]
    · obtain ⟨rfl, hmem⟩ := (hmixed c (mem_cons_self ..)).resolve_right helse
      obtain ⟨i, hi, hdata⟩ := mem_map.1 hmem
      rw [mem_range] at hi
      have him : m ≠ i := by
        rintro rfl
        exact hmissing c (mem_cons_self ..) rfl hdata.symm
      have hnot : m ∉ insert i got := by simp [him, hgot]
      have hincomplete : insert i got ≠ Finset.range n := by
        intro hall
        rw [hall] at hnot
        exact hnot (Finset.mem_range.2 hm)
      have hstep := addFragment_framed hn h hi c.now
      rw [if_neg hincomplete, hdata] at hstep
      obtain ⟨hanswers, got', hcollecting, hnot', hiff⟩ := hrest _ _ hnot hstep.2
      refine ⟨⟨fun _ => hstep.1, hanswers⟩, got', hcollecting, hnot', fun j hj => ?_⟩
      rw [hiff j hj, Finset.mem_insert, ← hdata]
      have hij : j = i ↔ framed data fragPayload n msgID i = framed data fragPayload n msgID j :=
        ⟨fun heq => by rw [heq], fun heq => (framed_injective hn hi hj heq).symm⟩
      rw [hij, or_assoc, or_left_comm]
      simp only [true_and]

/-- While sixteen fragments carry a message, its fragments in any order, with repetitions and
between calls for other keys, are answered with nothing until the last missing one, which is
answered with the message and leaves nothing pending. -/
theorem addFragments_reassembles {data : Bytes} {mtu : Int} {msgID : UInt8} {frags : List Bytes}
    (hfrags : fragment data mtu msgID = some frags)
    (hfit : (data.length : Int) ≤ maxFragments * (mtu - headerSize))
    {r : Reassembler} {deviceID : String} (hfree : r deviceID msgID = none)
    (calls : List Call) (hmixed : Mixed deviceID msgID frags calls)
    (hmissing : ∃ f ∈ frags, ∀ c ∈ calls, c.deviceID = deviceID → c.data ≠ f) :
    (∀ ca ∈ calls.zip (addFragments r calls).1,
      ¬ ca.1.Elsewhere deviceID msgID → ca.2 = .waiting) ∧
    ∀ last ∈ frags, ∀ now : Nat,
      (∀ f ∈ frags, f = last ∨ ∃ c ∈ calls, c.deviceID = deviceID ∧ c.data = f) →
        (addFragment (addFragments r calls).2 deviceID last now).1 = .whole data ∧
          (addFragment (addFragments r calls).2 deviceID last now).2 deviceID msgID = none := by
  obtain ⟨fragPayload, n, kept, rfl, hkept, -, hn, -, hlen, rfl⟩ := fragment_eq_some hfrags
  rw [Int.add_sub_cancel] at hfit
  obtain rfl : data = kept := (hkept.trans (take_of_length_le (by exact_mod_cast hfit))).symm
  obtain ⟨f, hf, hmissing⟩ := hmissing
  obtain ⟨m, hm, rfl⟩ := mem_map.1 hf
  rw [mem_range] at hm
  have hstart : Collecting ((List.range n).map (piece data fragPayload)) ∅ (r deviceID msgID) := by
    rw [hfree]
    rfl
  obtain ⟨hanswers, got, hcollecting, hnot, hiff⟩ :=
    addFragments_waiting hn hm hmissing hmixed (Finset.notMem_empty m) hstart
  refine ⟨hanswers, ?_⟩
  intro last hlast now hcovers
  obtain ⟨i, hi, rfl⟩ := mem_map.1 hlast
  rw [mem_range] at hi
  have hall : insert i got = Finset.range n := by
    ext j
    rw [Finset.mem_insert, Finset.mem_range]
    constructor
    · rintro (rfl | hj)
      · exact hi
      · simpa using hcollecting.subset hj
    · intro hj
      obtain heq | hcall := hcovers _ (mem_map_of_mem (mem_range.2 hj))
      · exact .inl (framed_injective hn hj hi heq)
      · exact .inr ((hiff j hj).2 (.inr hcall))
  have hstep := addFragment_framed hn hcollecting hi now
  rwa [if_pos hall, take_of_length_le hlen] at hstep

/-- Three fragments that arrive last first, one of them twice, between a call for another
device. -/
theorem addFragments_reassembles_three :
    fragment [1, 2, 3, 4, 5] 4 9 = some [[2, 9, 1, 2], [18, 9, 3, 4], [34, 9, 5]] ∧
      (addFragment (addFragments (fun _ _ => none)
          [⟨"a", [34, 9, 5], 0⟩, ⟨"b", [2, 9, 8, 8], 1⟩, ⟨"a", [34, 9, 5], 2⟩,
            ⟨"a", [18, 9, 3, 4], 3⟩]).2 "a" [2, 9, 1, 2] 4).1 = .whole [1, 2, 3, 4, 5] := by
  have hfrags : fragment [1, 2, 3, 4, 5] 4 9 = some [[2, 9, 1, 2], [18, 9, 3, 4], [34, 9, 5]] := by
    decide +kernel
  have hmixed : Mixed "a" 9 [[2, 9, 1, 2], [18, 9, 3, 4], [34, 9, 5]]
      [⟨"a", [34, 9, 5], 0⟩, ⟨"b", [2, 9, 8, 8], 1⟩, ⟨"a", [34, 9, 5], 2⟩,
        ⟨"a", [18, 9, 3, 4], 3⟩] := by
    simp [Mixed, Call.Elsewhere]
  have hmissing : ∃ f ∈ [[2, 9, 1, 2], [18, 9, 3, 4], [34, 9, 5]],
      ∀ c ∈ ([⟨"a", [34, 9, 5], 0⟩, ⟨"b", [2, 9, 8, 8], 1⟩, ⟨"a", [34, 9, 5], 2⟩,
        ⟨"a", [18, 9, 3, 4], 3⟩] : List Call), c.deviceID = "a" → c.data ≠ f :=
    ⟨[2, 9, 1, 2], by decide, by decide⟩
  refine ⟨hfrags, ?_⟩
  exact ((addFragments_reassembles hfrags (by decide) rfl _ hmixed hmissing).2
    [2, 9, 1, 2] (by decide) 4 (by decide)).1

/-- A message of seventeen bytes in frames of three, of which one byte is payload: the last
fragment is answered with the first sixteen bytes. -/
theorem addFragments_cuts_off : ∃ frags, fragment (List.replicate 17 7) 3 0 = some frags ∧
      (addFragments (fun _ _ => none) (frags.map fun f => ⟨"a", f, 0⟩)).1 =
        List.replicate 15 .waiting ++ [.whole (List.replicate 16 7)] ∧
      .whole (List.replicate 17 7) ∉
        (addFragments (fun _ _ => none) (frags.map fun f => ⟨"a", f, 0⟩)).1 := by
  refine ⟨_, rfl, ?_, ?_⟩ <;> decide +kernel

/-- A payload is added if it is claimed; the payloads come with their times. -/
def offers (r : Reassembler) (deviceID : String) (mtu : Nat) :
    List (Bytes × Nat) → List (Option Added)
  | [] => []
  | (data, now) :: rest =>
    if claims r deviceID data mtu then
      let (answer, r) := addFragment r deviceID data now
      some answer :: offers r deviceID mtu rest
    else none :: offers r deviceID mtu rest

theorem claims_eq_true {mtu : Nat} (h : claims r deviceID data mtu) :
    data.head? ≠ some protoVersion1 ∧ data.length ≤ mtu ∧
      ∀ b0 b1 payload, data = b0 :: b1 :: payload →
        (decodeHeader b0 b1).1 < (decodeHeader b0 b1).2.1 - 1 → data.length = mtu := by
  unfold claims at h
  split at h
  next b0 b1 payload =>
    split at h
    · cases h
    next hgate =>
      simp only [Bool.or_eq_true, decide_eq_true_eq, not_or] at hgate
      refine ⟨fun hversion => hgate.2 (Option.some.inj hversion), ?_⟩
      by_cases hindex : (decodeHeader b0 b1).1 < (decodeHeader b0 b1).2.1 - 1
      · have hmtu := of_decide_eq_true ((if_pos hindex).symm.trans h)
        exact ⟨hmtu.le, fun _ _ _ _ _ => hmtu⟩
      · have hsiblings := (if_neg hindex).symm.trans h
        split at hsiblings
        · cases hsiblings
        next hlong =>
          refine ⟨Nat.not_lt.1 hlong, ?_⟩
          rintro _ _ _ ⟨⟩ hlt
          exact absurd hlt hindex
  · cases h

variable {kept : Bytes}

theorem claims_framed (hn : n ≤ maxFragments) (hmany : 3 ≤ n)
    (hpayload : minFragmentPayload ≤ fragPayload)
    (hlast : (n - 1) * fragPayload + minFragmentPayload ≤ kept.length) (hi : i < n)
    (hsiblings : i + 1 = n → (r deviceID msgID).any (·.total = n)) :
    claims r deviceID (framed kept fragPayload n msgID i) (fragPayload + headerSize) := by
  have hbytes : ∀ n ≤ maxFragments, 3 ≤ n → ∀ i < n, 1 < UInt8.ofNat n ∧
      UInt8.ofNat i < UInt8.ofNat n ∧ (UInt8.ofNat i < UInt8.ofNat n - 1 ↔ i + 1 ≠ n) ∧
      (encodeHeader (UInt8.ofNat i) (UInt8.ofNat n) 0).1 ≠ protoVersion1 := by
    decide +kernel
  obtain ⟨htotal, hindex, hnext, hversion⟩ := hbytes n hn hmany i hi
  have hlength : (piece kept fragPayload i).length = min fragPayload
      (kept.length - i * fragPayload) := by
    rw [piece_eq, length_take, length_drop]
  have hle : i * fragPayload ≤ (n - 1) * fragPayload := Nat.mul_le_mul_right _ (by omega)
  have hmin : minFragmentPayload ≤ min fragPayload (kept.length - i * fragPayload) := by omega
  have hsize : headerSize = 2 := rfl
  have hversion' : (encodeHeader (UInt8.ofNat i) (UInt8.ofNat n) msgID).1 ≠ protoVersion1 :=
    hversion
  have hmtu : fragPayload + headerSize ≠ 0 := Nat.succ_ne_zero _
  simp only [claims, framed, isFragment, decodeHeader_encodeHeader hi hn, toNat_ofNat hn, hmin,
    htotal, hindex, hversion', hmtu, decide_true, decide_false, Bool.and_true, Bool.not_true,
    Bool.or_self, Bool.false_eq_true, if_false, length_cons, hlength]
  by_cases hend : i + 1 = n
  · rw [if_neg (fun h => hnext.1 h hend), if_neg (by omega)]
    exact hsiblings hend
  · have hle : i * fragPayload + fragPayload ≤ (n - 1) * fragPayload := by
      rw [← Nat.succ_mul]
      exact Nat.mul_le_mul_right _ (by omega)
    rw [if_pos (hnext.2 hend)]
    exact decide_eq_true (by omega)

/-- The fragments in the list are those that have not arrived. -/
def Remaining (kept : Bytes) (fragPayload n : Nat) (msgID : UInt8) (got : Finset Nat)
    (frags : List Bytes) : Prop :=
  frags.Nodup ∧ ∀ f, f ∈ frags ↔ ∃ i < n, i ∉ got ∧ f = framed kept fragPayload n msgID i

theorem Remaining.tail (hn : n ≤ maxFragments)
    (h : Remaining kept fragPayload n msgID got (framed kept fragPayload n msgID i :: frags))
    (hi : i < n) : Remaining kept fragPayload n msgID (insert i got) frags := by
  obtain ⟨hnot, hnodup⟩ := nodup_cons.1 h.1
  refine ⟨hnodup, fun f => ⟨fun hf => ?_, ?_⟩⟩
  · obtain ⟨j, hj, hgot, rfl⟩ := (h.2 f).1 (mem_cons_of_mem _ hf)
    refine ⟨j, hj, fun hmem => ?_, rfl⟩
    obtain rfl | hmem := Finset.mem_insert.1 hmem
    · exact hnot hf
    · exact hgot hmem
  · rintro ⟨j, hj, hgot, rfl⟩
    rw [Finset.mem_insert, not_or] at hgot
    obtain heq | hmem := mem_cons.1 ((h.2 _).2 ⟨j, hj, hgot.2, rfl⟩)
    · exact absurd (framed_injective hn hj hi heq) hgot.1
    · exact hmem

theorem Remaining.eq_nil_iff (h : Remaining kept fragPayload n msgID got frags)
    (hgot : got ⊆ Finset.range n) : frags = [] ↔ got = Finset.range n := by
  constructor
  · rintro rfl
    refine Finset.Subset.antisymm hgot fun j hj => ?_
    by_contra hnot
    exact not_mem_nil ((h.2 _).2 ⟨j, Finset.mem_range.1 hj, hnot, rfl⟩)
  · rintro rfl
    refine eq_nil_iff_forall_not_mem.2 fun f hf => ?_
    obtain ⟨j, hj, hnot, -⟩ := (h.2 f).1 hf
    exact hnot (Finset.mem_range.2 hj)

theorem offers_framed (hn : n ≤ maxFragments) (hmany : 3 ≤ n)
    (hpayload : minFragmentPayload ≤ fragPayload) (hlen : kept.length ≤ n * fragPayload)
    (hlast : (n - 1) * fragPayload + minFragmentPayload ≤ kept.length) {order : List (Bytes × Nat)}
    (h : Collecting ((List.range n).map (piece kept fragPayload)) got (r deviceID msgID))
    (hrest : Remaining kept fragPayload n msgID got (order.map fst)) (hne : order ≠ [])
    (hfirst : got = ∅ → (order.map fst).head? ≠ some (framed kept fragPayload n msgID (n - 1))) :
    offers r deviceID (fragPayload + headerSize) order =
      List.replicate (order.length - 1) (some .waiting) ++ [some (.whole kept)] := by
  induction order generalizing r got with
  | nil => exact absurd rfl hne
  | cons c order ih =>
    obtain ⟨f, now⟩ := c
    obtain ⟨i, hi, -, rfl⟩ := (hrest.2 f).1 mem_cons_self
    have htail := hrest.tail hn hi
    have hsiblings (hend : i + 1 = n) : (r deviceID msgID).any (·.total = n) := by
      cases hpending : r deviceID msgID with
      | none =>
        -- Nothing has arrived, and the order begins with the last fragment.
        rw [hpending] at h
        obtain rfl : i = n - 1 := by omega
        exact absurd rfl (hfirst h)
      | some pm =>
        rw [hpending] at h
        simpa using h.1
    have hclaimed := claims_framed hn hmany hpayload hlast hi hsiblings
    have hstep := addFragment_framed hn h hi now
    rw [offers, if_pos hclaimed]
    have hnil := htail.eq_nil_iff
      (Finset.insert_subset (Finset.mem_range.2 hi) (by simpa using h.subset))
    split at hstep
    next hall =>
      obtain rfl : order = [] := map_eq_nil_iff.1 (hnil.2 hall)
      simp only [hstep.1, take_of_length_le hlen]
      rfl
    next hall =>
      have hne' : order ≠ [] := fun heq => hall (hnil.1 (map_eq_nil_iff.2 heq))
      simp only [hstep.1, ih hstep.2 htail hne'
        (fun heq => absurd heq (Finset.insert_ne_empty i got))]
      obtain ⟨c, order, rfl⟩ := exists_cons_of_ne_nil hne'
      rfl

/-- Every fragment of a message that is cut into three or more is claimed and the message, as far
as sixteen fragments carry it, is returned; what is claimed has the length its header asks for. -/
theorem claims_exact : (∀ (data : Bytes) (mtu : Nat) (msgID : UInt8) (frags : List Bytes),
      fragment data mtu msgID = some frags → 3 ≤ frags.length →
      headerSize + minFragmentPayload ≤ mtu →
      (∀ last ∈ frags.getLast?, headerSize + minFragmentPayload ≤ last.length) →
      ∀ (r : Reassembler) (deviceID : String), r deviceID msgID = none →
      ∀ order : List (Bytes × Nat), (order.map fst).Perm frags →
      (order.map fst).head? ≠ frags.getLast? →
      offers r deviceID mtu order = List.replicate (frags.length - 1) (some .waiting) ++
        [some (.whole (data.take (maxFragments * (mtu - headerSize))))]) ∧
    ∀ (r : Reassembler) (deviceID : String) (data : Bytes) (mtu : Nat),
      claims r deviceID data mtu = true → data.head? ≠ some protoVersion1 ∧ data.length ≤ mtu ∧
        ∀ b0 b1 payload, data = b0 :: b1 :: payload →
          (decodeHeader b0 b1).1 < (decodeHeader b0 b1).2.1 - 1 → data.length = mtu := by
  refine ⟨?_, fun _ _ _ _ => claims_eq_true⟩
  intro data mtu msgID frags hfrags hmany hmtu hlast r deviceID hfree order hperm hfirst
  obtain ⟨fragPayload, n, kept, hpayload, hkept, -, hn, -, hlen, rfl⟩ := fragment_eq_some hfrags
  obtain rfl : mtu = fragPayload + headerSize := by exact_mod_cast hpayload
  have hlength := hperm.length_eq
  simp only [length_map, length_range] at hmany hlength ⊢
  have hend : ((List.range n).map (framed kept fragPayload n msgID)).getLast? =
      some (framed kept fragPayload n msgID (n - 1)) := by
    rw [getLast?_map, getLast?_range, if_neg (by omega), Option.map_some]
  rw [hend] at hfirst hlast
  have hlast' := hlast _ rfl
  simp only [framed, length_cons, piece_eq, length_take, length_drop, headerSize] at hlast' hmtu
  have hempty : Collecting ((List.range n).map (piece kept fragPayload)) ∅ (r deviceID msgID) := by
    rw [hfree]
    rfl
  have hall : Remaining kept fragPayload n msgID ∅ (order.map fst) := by
    refine ⟨hperm.nodup_iff.2 (nodup_range.map_on ?_), fun f => ?_⟩
    · intro i hi j hj
      exact framed_injective hn (mem_range.1 hi) (mem_range.1 hj)
    · simp [hperm.mem_iff, eq_comm]
  have hne : order ≠ [] := by
    rintro rfl
    simp only [length_nil] at hlength
    omega
  have hmin : minFragmentPayload = 100 := rfl
  rw [Nat.add_sub_cancel, ← hkept, ← hlength]
  exact offers_framed hn hmany (by omega) hlen (by omega) hempty hall hne fun _ => hfirst

/-- Three fragments, of which the last one comes second. -/
theorem claims_exact_three : fragment (List.replicate 300 7) 102 9 =
        some ((List.range 3).map (framed (List.replicate 300 7) 100 3 9)) ∧
      offers (fun _ _ => none) "a" 102
          ([1, 2, 0].map fun i => (framed (List.replicate 300 7) 100 3 9 i, i)) =
        [some .waiting, some .waiting, some (.whole (List.replicate 300 7))] := by
  have hfrags : fragment (List.replicate 300 7) (102 : Nat) 9 =
      some ((List.range 3).map (framed (List.replicate 300 7) 100 3 9)) := by decide +kernel
  refine ⟨hfrags, ?_⟩
  exact (claims_exact.1 _ _ _ _ hfrags (by decide) (by decide) (by decide +kernel) _ "a" rfl _
    (by decide +kernel) (by decide +kernel)).trans (by decide +kernel)

/-- Of a message that sixteen fragments do not carry the first part is returned. -/
theorem claims_cut_off :
    ∃ frags, fragment (List.replicate 1601 7) 102 0 = some frags ∧ frags.length = 16 ∧
      (∀ last ∈ frags.getLast?, headerSize + minFragmentPayload ≤ last.length) ∧
      offers (fun _ _ => none) "a" 102 (frags.map fun f => (f, 0)) =
        List.replicate 15 (some .waiting) ++ [some (.whole (List.replicate 1600 7))] := by
  refine ⟨(List.range 16).map (framed (List.replicate 1600 7) 100 16 0), ?_, rfl, ?_, ?_⟩
  · decide +kernel
  · decide +kernel
  · decide +kernel

/-- What is older than the cutoff is dropped. -/
def Reassembler.expire (r : Reassembler) (cutoff : Nat) : Reassembler := fun deviceID msgID =>
  (r deviceID msgID).filter fun pm => cutoff ≤ pm.createdAt

structure History where
  pending : Reassembler
  calls : List Call

inductive Operation where
  | add (c : Call)
  | expire (cutoff : Nat)

def operate (s : History) : Operation → Option History
  | .add c => some ⟨(addFragment s.pending c.deviceID c.data c.now).2, s.calls ++ [c]⟩
  | .expire cutoff => some { s with pending := s.pending.expire cutoff }

/-- The total is the one that is pending or, if nothing is, more than the index. -/
def Call.regular (c : Call) (r : Reassembler) : Bool :=
  match c.data with
  | b0 :: b1 :: _ =>
    match r c.deviceID b1 with
    | none => (decodeHeader b0 b1).1 < (decodeHeader b0 b1).2.1
    | some pm => pm.total = (decodeHeader b0 b1).2.1.toNat
  | _ => true

/-- Something is pending for the message, or the index is below the total. -/
def Call.admissible (c : Call) (r : Reassembler) : Bool :=
  match c.data with
  | b0 :: b1 :: _ =>
    (r c.deviceID b1).isSome || (decodeHeader b0 b1).1.toNat < (decodeHeader b0 b1).2.1.toNat
  | _ => true

def Operation.regular (s : History) : Operation → Prop
  | .add c => c.regular s.pending = true
  | .expire _ => True

def Call.Carries (c : Call) (deviceID : String) (msgID : UInt8) (total index : Nat)
    (payload : Bytes) : Prop :=
  c.deviceID = deviceID ∧ ∃ b0, c.data = b0 :: msgID :: payload ∧
    (decodeHeader b0 msgID).1.toNat = index ∧ (decodeHeader b0 msgID).2.1.toNat = total

/-- The data is put together from pieces that came for one message. -/
def MadeOf (calls : List Call) (deviceID : String) (data : Bytes) : Prop :=
  ∃ (msgID : UInt8) (pieces : List Bytes), data = pieces.flatten ∧
    ∀ index payload, pieces[index]? = some payload →
      ∃ c ∈ calls, c.Carries deviceID msgID pieces.length index payload

structure PendingMessage.Unmixed (calls : List Call) (deviceID : String) (msgID : UInt8)
    (pm : PendingMessage) : Prop where
  length : pm.fragments.length = pm.total
  received : pm.received = pm.fragments.countP Option.isSome
  carried : ∀ index payload, pm.fragments[index]? = some (some payload) →
    ∃ c ∈ calls, c.Carries deviceID msgID pm.total index payload

section Unmixed
variable {calls : List Call} {c : Call} {s : History} (h : pm.Unmixed calls deviceID msgID)
include h

theorem PendingMessage.Unmixed.later (c : Call) : pm.Unmixed (calls ++ [c]) deviceID msgID := by
  refine ⟨h.length, h.received, fun index payload hfragment => ?_⟩
  obtain ⟨c', hc', hcarries⟩ := h.carried index payload hfragment
  exact ⟨c', mem_append_left _ hc', hcarries⟩

theorem PendingMessage.Unmixed.add {index : Nat} (hindex : index < pm.total)
    (hc : c.Carries deviceID msgID pm.total index payload) :
    (pm.add index payload).Unmixed (calls ++ [c]) deviceID msgID := by
  have hlt : index < pm.fragments.length := h.length ▸ hindex
  refine ⟨(length_set ..).trans h.length, ?_, fun j p hj => ?_⟩
  · simp only [PendingMessage.add, countP_set hlt, h.received, getElem?_eq_getElem hlt]
    cases hfragment : pm.fragments[index] with
    | none => simp
    | some p =>
      have hpos : 0 < pm.fragments.countP Option.isSome :=
        countP_pos_iff.2 ⟨_, getElem_mem hlt, by simp [hfragment]⟩
      simp
      omega
  · rw [PendingMessage.add, getElem?_set] at hj
    split at hj
    next heq =>
      subst heq
      cases hj
      exact ⟨c, by simp, hc⟩
    next =>
      obtain ⟨c', hc', hcarries⟩ := h.carried j p hj
      exact ⟨c', by simp [hc'], hcarries⟩

theorem PendingMessage.Unmixed.whole (hall : pm.total ≤ pm.received) :
    MadeOf calls deviceID (pm.fragments.flatMap fun f => f.getD []) := by
  have hpresent : ∀ f ∈ pm.fragments, f.isSome := by
    rw [← countP_eq_length, ← h.received, h.length]
    refine Nat.le_antisymm ?_ hall
    rw [h.received, ← h.length]
    exact countP_le_length
  refine ⟨msgID, pm.fragments.map (·.getD []), flatMap_def .., fun index payload hpayload => ?_⟩
  rw [getElem?_map] at hpayload
  obtain ⟨f, hf, rfl⟩ := Option.map_eq_some_iff.1 hpayload
  obtain ⟨payload, rfl⟩ := Option.isSome_iff_exists.1 (hpresent f (mem_of_getElem? hf))
  rw [length_map, h.length]
  exact h.carried index payload hf

end Unmixed

theorem put_eq_some {d : String} {m : UInt8} {pm? : Option PendingMessage}
    (h : r.put deviceID msgID pm? d m = some pm) :
    d = deviceID ∧ m = msgID ∧ pm? = some pm ∨ r d m = some pm := by
  rw [Reassembler.put, update_apply] at h
  split at h
  next hd =>
    rw [update_apply] at h
    split at h
    next hm => exact .inl ⟨hd, hm, h⟩
    next => exact .inr (hd ▸ h)
  next => exact .inr h

def History.Unmixed (s : History) : Prop :=
  ∀ deviceID msgID pm, s.pending deviceID msgID = some pm → pm.Unmixed s.calls deviceID msgID

theorem History.Unmixed.getD {s : History} (h : s.Unmixed) {b0 : UInt8}
    {now : Nat} (hc : Call.regular ⟨deviceID, b0 :: msgID :: payload, now⟩ s.pending) :
    let total := (decodeHeader b0 msgID).2.1.toNat
    let pm := (s.pending deviceID msgID).getD ⟨List.replicate total none, total, 0, now⟩
    pm.Unmixed s.calls deviceID msgID ∧ pm.total = total := by
  rw [Call.regular] at hc
  cases hpending : s.pending deviceID msgID with
  | none =>
    refine ⟨⟨length_replicate, by simp [countP_replicate], fun index payload hfragment => ?_⟩, rfl⟩
    rw [Option.getD_none, getElem?_replicate] at hfragment
    split at hfragment <;> cases hfragment
  | some pm =>
    simp only [hpending, decide_eq_true_eq] at hc
    exact ⟨h _ _ _ hpending, hc⟩

theorem addFragment_unmixed {s : History} {c : Call} (h : s.Unmixed) (hc : c.regular s.pending) :
    History.Unmixed ⟨(addFragment s.pending c.deviceID c.data c.now).2, s.calls ++ [c]⟩ ∧
      ∀ data, (addFragment s.pending c.deviceID c.data c.now).1 = .whole data →
        MadeOf (s.calls ++ [c]) c.deviceID data := by
  have hold : ∀ d m pm, s.pending d m = some pm → pm.Unmixed (s.calls ++ [c]) d m :=
    fun d m pm hpm => (h d m pm hpm).later c
  obtain ⟨deviceID, data, now⟩ := c
  obtain _ | ⟨b0, _ | ⟨msgID, payload⟩⟩ := data
  · exact ⟨hold, nofun⟩
  · exact ⟨hold, nofun⟩
  obtain ⟨hpm, htotal⟩ := h.getD hc
  have hid : (decodeHeader b0 msgID).2.2 = msgID := rfl
  simp only [addFragment, hid]
  generalize (s.pending deviceID msgID).getD _ = pm at hpm htotal ⊢
  generalize hc' : Call.mk deviceID (b0 :: msgID :: payload) now = c at hold ⊢
  have hput {pm? : Option PendingMessage}
      (hpm? : ∀ pm ∈ pm?, pm.Unmixed (s.calls ++ [c]) deviceID msgID) :
      History.Unmixed ⟨s.pending.put deviceID msgID pm?, s.calls ++ [c]⟩ := by
    intro d m pm' hpm'
    obtain ⟨rfl, rfl, heq⟩ | hbefore := put_eq_some hpm'
    · exact hpm? pm' heq
    · exact hold d m pm' hbefore
  split
  · exact ⟨hput fun _ heq => Option.some.inj heq ▸ hpm.later c, nofun⟩
  next hindex =>
    have hcarries : c.Carries deviceID msgID pm.total (decodeHeader b0 msgID).1.toNat payload :=
      hc' ▸ ⟨rfl, b0, rfl, rfl, htotal.symm⟩
    have hadded := hpm.add (Nat.not_le.1 hindex) hcarries
    split
    · exact ⟨hput fun _ heq => Option.some.inj heq ▸ hadded, nofun⟩
    next hall =>
      refine ⟨hput nofun, ?_⟩
      rintro data ⟨⟩
      exact hadded.whole (Nat.not_lt.1 hall)

/-- What is not admissible is refused and leaves a message pending; any other call that fails
changes nothing. -/
theorem addFragment_atomic_iff (c : Call) (r : Reassembler) :
    ((addFragment r c.deviceID c.data c.now).1 = .failed →
      (addFragment r c.deviceID c.data c.now).2 = r) ↔ c.admissible r = true := by
  obtain ⟨deviceID, data, now⟩ := c
  obtain _ | ⟨b0, _ | ⟨msgID, payload⟩⟩ := data
  · exact iff_of_true (fun _ => rfl) rfl
  · exact iff_of_true (fun _ => rfl) rfl
  have hid : (decodeHeader b0 msgID).2.2 = msgID := rfl
  simp only [addFragment, Call.admissible, hid]
  cases hpending : r deviceID msgID with
  | none =>
    rw [Option.getD_none, Option.isSome_none, Bool.false_or, decide_eq_true_eq]
    split
    next hindex =>
      refine iff_of_false (fun hsame => ?_) (Nat.not_lt.2 hindex)
      have hkey := congrFun (congrFun (hsame rfl) deviceID) msgID
      simp [Reassembler.put, hpending] at hkey
    next hindex =>
      refine iff_of_true (fun hfailed => ?_) (Nat.not_le.1 hindex)
      split at hfailed <;> cases hfailed
  | some pm =>
    refine iff_of_true (fun hfailed => ?_) rfl
    rw [Option.getD_some] at hfailed ⊢
    split at hfailed
    next hindex => rw [if_pos hindex, Reassembler.put, ← hpending, update_eq_self, update_eq_self]
    · split at hfailed <;> cases hfailed

/-- A call that fails changes nothing exactly if it is admissible, and in every run of regular calls
and expiries what a call returns is made of fragments that carried the same device, number and
total. -/
theorem reassembly_unmixed (c : Call) :
    (∀ r : Reassembler, ((addFragment r c.deviceID c.data c.now).1 = .failed →
      (addFragment r c.deviceID c.data c.now).2 = r) ↔ c.admissible r = true) ∧
    ∀ s : History, Runs.Reaches operate Operation.regular ⟨fun _ _ => none, []⟩ s →
      c.regular s.pending = true →
      ∀ data, (addFragment s.pending c.deviceID c.data c.now).1 = .whole data →
        MadeOf (s.calls ++ [c]) c.deviceID data := by
  refine ⟨addFragment_atomic_iff c, fun s hs hc => ?_⟩
  have hinv : s.Unmixed := by
    apply hs.invariant (fun _ _ _ hpm => by cases hpm)
    intro s op t h hregular hstep
    cases op with cases hstep
    | add c => exact (addFragment_unmixed h hregular).1
    | expire cutoff =>
      intro d m pm hpm
      exact h d m pm (Option.filter_eq_some_iff.1 hpm).1
  exact (addFragment_unmixed hinv hc).2

/-- One of two fragments is there: a fragment with the index two and another total is refused, the
other one completes the message. -/
theorem reassembly_unmixed_two : let seen := (addFragment (fun _ _ => none) "a" [0x01, 7, 1] 0).2
    (addFragment seen "a" [0x22, 7] 1).2 = seen ∧
      (addFragment seen "a" [0x11, 7, 2] 1).1 = .whole [1, 2] ∧
      MadeOf [⟨"a", [0x01, 7, 1], 0⟩, ⟨"a", [0x11, 7, 2], 1⟩] "a" [1, 2] := by
  refine ⟨((reassembly_unmixed ⟨"a", [0x22, 7], 1⟩).1 _).2 (by decide) (by decide), by decide, ?_⟩
  exact (reassembly_unmixed ⟨"a", [0x11, 7, 2], 1⟩).2 _
    (.tail (.add ⟨"a", [0x01, 7, 1], 0⟩) .refl rfl rfl) (by decide) _ (by decide)

/-- A refused header leaves something pending, and a piece of a message of two is joined with two
pieces of a message of three. -/
theorem totals_mixed : (addFragment (fun _ _ => none) "a" [0x10, 7] 0).1 = .failed ∧
      (addFragment (fun _ _ => none) "a" [0x10, 7] 0).2 "a" 7 ≠ none ∧
      (addFragments (fun _ _ => none) [⟨"a", [0x02, 7, 1], 0⟩, ⟨"a", [0x11, 7, 2], 1⟩,
        ⟨"a", [0x22, 7, 3], 2⟩]).1 = [.waiting, .waiting, .whole [1, 2, 3]] ∧
      (decodeHeader 0x11 7).2.1 = 2 ∧ (decodeHeader 0x22 7).2.1 = 3 := by
  decide

end MeshsatHub.Inbound
