import MeshsatHub.Foundations.Numerals
import MeshsatHub.Rns.Node

/-!
# Packets on the wire and their identity

A packet is known by a hash over its hashable part, and a link by a hash over that of its request
without the signalling bytes: functions of `unsignalledPart`, which no transport step changes.
`forwardedBytes` is the composition of the steps that one node makes.
-/

namespace MeshsatHub.Rnswire
open List (length_append replicate length_drop cons_append length_cons take_append_drop length_take)
open Numerals (forall_byte)
open Rns (headerMaxSize linkECPubSize linkMTUSize truncatedHashLen clampMTU parseSignalling
  signallingBytes)

/-- The hop count from which on a packet is dropped. -/
def pathfinderM : Nat := 128

def headerType2 : UInt8 := 1

def packetLinkRequest : UInt8 := 2

inductive PacketError where
  | tooShort
  | tooShortType2 (need got : Nat)
  | maxHops
  | emptyData
  deriving DecidableEq

structure Header where
  headerType : UInt8
  contextFlag : UInt8
  transportType : UInt8
  destType : UInt8
  packetType : UInt8
  hops : UInt8
  transportID : Bytes
  destHash : Bytes
  context : UInt8
  data : Bytes
  deriving DecidableEq

variable (flags : UInt8)

def headerTypeOf : UInt8 := (flags &&& 0x40) >>> 6

def contextFlagOf : UInt8 := (flags &&& 0x20) >>> 5

def transportTypeOf : UInt8 := (flags &&& 0x10) >>> 4

def destTypeOf : UInt8 := (flags &&& 0x0C) >>> 2

def packetTypeOf : UInt8 := flags &&& 0x03

def unmarshalHeader : Bytes → Except PacketError Header
  | flags :: hops :: rest =>
    if rest.length + 2 < headerMinSize then .error .tooShort
    else if pathfinderM ≤ hops.toNat then .error .maxHops
    else if headerTypeOf flags = headerType2 ∧ rest.length + 2 < headerMaxSize then
      .error (.tooShortType2 headerMaxSize (rest.length + 2))
    else
      let body := if headerTypeOf flags = headerType2 then rest.drop truncatedHashLen else rest
      let data := body.drop (truncatedHashLen + 1)
      if data = [] then .error .emptyData
      else
        .ok
          { headerType := headerTypeOf flags
            contextFlag := contextFlagOf flags
            transportType := transportTypeOf flags
            destType := destTypeOf flags
            packetType := packetTypeOf flags
            hops
            transportID :=
              if headerTypeOf flags = headerType2 then rest.take truncatedHashLen
              else replicate truncatedHashLen 0
            destHash := body.take truncatedHashLen
            context := body.getD truncatedHashLen 0
            data }
  | _ => .error .tooShort

def hashablePart : Bytes → Bytes
  | flags :: _ :: rest =>
    if headerTypeOf flags = headerType2 then
      if rest.length < truncatedHashLen then []
      else (flags &&& 0x0F) :: rest.drop truncatedHashLen
    else (flags &&& 0x0F) :: rest
  | _ => []

/-- The hashable part of a packet with `size` bytes of data, without the data after the two
keys. -/
def withoutSignalling (hashable : Bytes) (size : Nat) : Bytes :=
  if linkECPubSize < size then hashable.take (hashable.length - (size - linkECPubSize))
  else hashable

variable (sha256 : Bytes → Bytes)

def packetHash (raw : Bytes) : Bytes := sha256 (hashablePart raw)

def linkIDFromRequestPacket (raw : Bytes) : Except PacketError Bytes :=
  match unmarshalHeader raw with
  | .error e => .error e
  | .ok h =>
    let hashable := withoutSignalling (hashablePart raw) h.data.length
    .ok ((sha256 hashable).take truncatedHashLen)

def rewriteForTransport (raw : Bytes) (transportID : Vector UInt8 truncatedHashLen) : Bytes :=
  match raw with
  | flags :: hops :: rest =>
    if rest.length + 2 < headerMinSize then raw
    else if headerTypeOf flags = headerType2 then
      (flags ||| 0x10) :: hops :: (transportID.toList ++ rest.drop truncatedHashLen)
    else
      ((flags &&& 0x0F) ||| 0x40 ||| 0x10 ||| (flags &&& 0x20)) :: hops ::
        (transportID.toList ++ rest)
  | _ => raw

/-- The form that a transport node emits on the last hop. -/
def stripTransport (raw : Bytes) : Bytes :=
  match raw with
  | flags :: hops :: rest =>
    if rest.length + 2 < headerMaxSize ∨ headerTypeOf flags ≠ headerType2 then raw
    else ((flags &&& 0x0F) ||| (flags &&& 0x20)) :: hops :: rest.drop truncatedHashLen
  | _ => raw

def setHops (hops : UInt8) (raw : Bytes) : Bytes :=
  match raw with
  | flags :: _ :: rest => flags :: hops :: rest
  | _ => raw

variable (part : Bytes)

def signalled : Prop :=
  packetTypeOf (part.headD 0) = packetLinkRequest ∧
    part.length = truncatedHashLen + 2 + (linkECPubSize + linkMTUSize)

instance (part : Bytes) : Decidable (signalled part) := inferInstanceAs (Decidable (_ ∧ _))

variable (nextMTU previousMTU : Int)

def clampSignalling (raw : Bytes) : Bytes :=
  if signalled (hashablePart raw) then
    let size := raw.length - (linkECPubSize + linkMTUSize)
    raw.take size ++ clampMTU nextMTU previousMTU (raw.drop size)
  else raw

/-- What can happen to a packet in transport. -/
inductive TransportStep where
  | rewrite (transportID : Vector UInt8 truncatedHashLen)
  | strip
  | count (hops : UInt8)
  | clamp (nextMTU previousMTU : Int)

def TransportStep.apply (raw : Bytes) : TransportStep → Bytes
  | .rewrite transportID => rewriteForTransport raw transportID
  | .strip => stripTransport raw
  | .count hops => setHops hops raw
  | .clamp nextMTU previousMTU => clampSignalling nextMTU previousMTU raw

def transported (raw : Bytes) (steps : List TransportStep) : Bytes :=
  steps.foldl TransportStep.apply raw

/-- What one transport node sends on for a packet with the header `h`; the signalling bytes at the
end of the outgoing packet are cut off or overwritten. -/
def forwardedBytes (raw : Bytes) (h : Header) (direct : Bool)
    (nextHop : Vector UInt8 truncatedHashLen) (hops : UInt8) (nextMTU previousMTU : Int) : Bytes :=
  let out := setHops hops (if direct then stripTransport raw else rewriteForTransport raw nextHop)
  if h.packetType = packetLinkRequest ∧ h.data.length = linkECPubSize + linkMTUSize then
    let (pathMTU, mode) := parseSignalling (h.data.drop linkECPubSize)
    let front := out.take (out.length - linkMTUSize)
    if nextMTU = 0 then front
    else
      let m : Int := if nextMTU < pathMTU then nextMTU else pathMTU
      let m : Int := if 0 < previousMTU ∧ previousMTU < m then previousMTU else m
      if m ≠ pathMTU then front ++ signallingBytes m.toNat mode else out
  else out

def unsignalled : Bytes :=
  if signalled part then part.take (truncatedHashLen + 2 + linkECPubSize) else part

/-- The hashable part of a packet without the signalling bytes of a link request. -/
def unsignalledPart (raw : Bytes) : Bytes := unsignalled (hashablePart raw)

def shortType2 : Bytes → Option Nat
  | flags :: _ :: rest =>
    if headerTypeOf flags = headerType2 ∧ rest.length + 2 < headerMaxSize then
      some (rest.length + 2)
    else none
  | _ => none

/-- A packet after some steps, against what it was. -/
structure Kept (raw out : Bytes) : Prop where
  long : headerMinSize ≤ out.length
  part : unsignalledPart out = unsignalledPart raw
  short : shortType2 out = shortType2 raw

variable {out raw rest mid : Bytes} {flags hops : UInt8} {α : Type}

theorem Kept.trans (h₁ : Kept raw mid) (h₂ : Kept mid out) : Kept raw out where
  long := h₂.long
  part := h₂.part.trans h₁.part
  short := h₂.short.trans h₁.short

/-- A packet whose header has been changed, against what it was. -/
structure Rerouted (raw out : Bytes) : Prop where
  long : headerMinSize ≤ out.length
  part : hashablePart out = hashablePart raw
  short : shortType2 out = shortType2 raw

theorem Rerouted.kept (h : Rerouted raw out) : Kept raw out where
  long := h.long
  part := congrArg unsignalled h.part
  short := h.short

theorem Rerouted.trans (h₁ : Rerouted raw mid) (h₂ : Rerouted mid out) : Rerouted raw out where
  long := h₂.long
  part := h₂.part.trans h₁.part
  short := h₂.short.trans h₁.short

/-- The flags rewritten for transport, readdressed and stripped, and the types in the low bits. -/
theorem flags_table : ∀ flags : UInt8,
    (headerTypeOf ((flags &&& 0x0F) ||| 0x40 ||| 0x10 ||| (flags &&& 0x20)) = headerType2 ∧
      ((flags &&& 0x0F) ||| 0x40 ||| 0x10 ||| (flags &&& 0x20)) &&& 0x0F = flags &&& 0x0F) ∧
    (headerTypeOf (flags ||| 0x10) = headerTypeOf flags ∧
      (flags ||| 0x10) &&& 0x0F = flags &&& 0x0F) ∧
    (headerTypeOf ((flags &&& 0x0F) ||| (flags &&& 0x20)) ≠ headerType2 ∧
      ((flags &&& 0x0F) ||| (flags &&& 0x20)) &&& 0x0F = flags &&& 0x0F) ∧
    destTypeOf (flags &&& 0x0F) = destTypeOf flags ∧
      packetTypeOf (flags &&& 0x0F) = packetTypeOf flags :=
  forall_byte (by decide +kernel)

theorem exists_cons_cons (h : headerMinSize ≤ raw.length) :
    ∃ flags hops rest, raw = flags :: hops :: rest ∧ truncatedHashLen + 1 ≤ rest.length := by
  match raw, h with
  | flags :: hops :: rest, h =>
    refine ⟨flags, hops, rest, rfl, ?_⟩
    simp only [headerMinSize, length_cons] at h
    simp only [truncatedHashLen]
    omega
  | [_], h => simp [headerMinSize] at h
  | [], h => simp [headerMinSize] at h

theorem hashablePart_cons_cons (h : truncatedHashLen + 1 ≤ rest.length) :
    hashablePart (flags :: hops :: rest) =
      (flags &&& 0x0F) ::
        if headerTypeOf flags = headerType2 then rest.drop truncatedHashLen else rest := by
  have hlong : ¬ rest.length < truncatedHashLen := by omega
  simp only [hashablePart, if_neg hlong]
  split <;> rfl

section
variable (h : headerMinSize ≤ raw.length)
include h

theorem rerouted_rewriteForTransport (transportID : Vector UInt8 truncatedHashLen) :
    Rerouted raw (rewriteForTransport raw transportID) := by
  obtain ⟨flags, hops, rest, rfl, hrest⟩ := exists_cons_cons h
  have hid : transportID.toList.length = truncatedHashLen := by simp
  have hmin : ¬ rest.length + 2 < headerMinSize := by
    simp only [headerMinSize, truncatedHashLen] at hrest ⊢
    omega
  simp only [rewriteForTransport, if_neg hmin]
  generalize transportID.toList = id at hid
  split
  next htype =>
    obtain ⟨-, ⟨htype', hlow⟩, -⟩ := flags_table flags
    have hlen : (id ++ rest.drop truncatedHashLen).length = rest.length := by
      rw [length_append, hid, length_drop]
      omega
    refine ⟨by simpa [hlen] using h, ?_, ?_⟩
    · rw [hashablePart_cons_cons hrest, hashablePart_cons_cons (by rw [hlen]; exact hrest),
        htype', if_pos htype, if_pos htype, hlow, List.drop_left' hid]
    · simp only [shortType2, htype', hlen]
  next htype =>
    obtain ⟨⟨htype', hlow⟩, -⟩ := flags_table flags
    have hlen : (id ++ rest).length = truncatedHashLen + rest.length := by
      rw [length_append, hid]
    refine ⟨?_, ?_, ?_⟩
    · simp only [length_cons, hlen, headerMinSize, truncatedHashLen] at hrest ⊢
      omega
    · rw [hashablePart_cons_cons hrest, hashablePart_cons_cons (by omega), htype',
        if_pos rfl, if_neg htype, hlow, List.drop_left' hid]
    · have hmax : ¬ truncatedHashLen + rest.length + 2 < headerMaxSize := by
        simp only [headerMaxSize, truncatedHashLen] at hrest ⊢
        omega
      simp only [shortType2, htype', hlen, hmax, htype, and_false, false_and, if_false]

theorem rerouted_stripTransport : Rerouted raw (stripTransport raw) := by
  obtain ⟨flags, hops, rest, rfl, hrest⟩ := exists_cons_cons h
  simp only [stripTransport]
  split
  next => exact ⟨h, rfl, rfl⟩
  next hguard =>
    obtain ⟨hmax, htype⟩ := not_or.1 hguard
    rw [not_not] at htype
    obtain ⟨-, -, ⟨htype', hlow⟩, -⟩ := flags_table flags
    have hlen : truncatedHashLen + 1 ≤ (rest.drop truncatedHashLen).length := by
      rw [length_drop]
      simp only [headerMaxSize, truncatedHashLen] at hmax ⊢
      omega
    refine ⟨?_, ?_, ?_⟩
    · simp only [length_cons, headerMinSize, truncatedHashLen] at hlen ⊢
      omega
    · rw [hashablePart_cons_cons hrest, hashablePart_cons_cons hlen, if_neg htype',
        if_pos htype, hlow]
    · simp only [shortType2, htype', hmax, and_false, false_and, if_false]

theorem rerouted_setHops (hops : UInt8) : Rerouted raw (setHops hops raw) := by
  obtain ⟨flags, hops', rest, rfl, hrest⟩ := exists_cons_cons h
  exact ⟨h, rfl, rfl⟩

end

theorem clampMTU_cases {data : Bytes} (h : data.length = linkECPubSize + linkMTUSize) :
    clampMTU nextMTU previousMTU data = data.take linkECPubSize ∨
      ∃ signalling : Bytes, signalling.length = linkMTUSize ∧
        clampMTU nextMTU previousMTU data = data.take linkECPubSize ++ signalling := by
  have hkept : ∃ signalling : Bytes, signalling.length = linkMTUSize ∧
      data = data.take linkECPubSize ++ signalling := by
    refine ⟨data.drop linkECPubSize, ?_, (take_append_drop _ _).symm⟩
    rw [length_drop, h, Nat.add_sub_cancel_left]
  unfold clampMTU
  rw [if_pos h]
  dsimp only
  split_ifs
  all_goals first
    | exact .inl rfl
    | exact .inr hkept
    | exact .inr ⟨_, rfl, rfl⟩

theorem headD_append {front : Bytes} (h : front.length = truncatedHashLen + 2) (tail : Bytes) :
    (front ++ tail).headD 0 = front.headD 0 := by
  cases front with
  | nil => simp at h
  | cons flags front => rfl

theorem unsignalled_clampMTU {front data : Bytes} (hfront : front.length = truncatedHashLen + 2)
    (hdata : data.length = linkECPubSize + linkMTUSize)
    (htype : packetTypeOf (front.headD 0) = packetLinkRequest) :
    unsignalled (front ++ clampMTU nextMTU previousMTU data) = unsignalled (front ++ data) := by
  have htake : ∀ tail : Bytes, (front ++ tail).take (truncatedHashLen + 2 + linkECPubSize) =
        front ++ tail.take linkECPubSize := by
    intro tail
    rw [← hfront, List.take_length_add_append]
  have hbefore : signalled (front ++ data) := by
    refine ⟨by rw [headD_append hfront]; exact htype, ?_⟩
    rw [length_append, hfront, hdata]
  unfold unsignalled
  rw [if_pos hbefore, htake data]
  have hkeys : (data.take linkECPubSize).length = linkECPubSize := by
    rw [length_take]
    omega
  obtain hclamp | ⟨signalling, hlen, hclamp⟩ := clampMTU_cases nextMTU previousMTU hdata
  · -- The signalling bytes are gone, and the part is taken as it is.
    have hafter : ¬ signalled (front ++ data.take linkECPubSize) := by
      intro hs
      have := hs.2
      rw [length_append, hfront, hkeys] at this
      simp only [linkECPubSize, linkMTUSize, truncatedHashLen] at this
      omega
    rw [hclamp, if_neg hafter]
  · have hafter : signalled (front ++ (data.take linkECPubSize ++ signalling)) := by
      refine ⟨by rw [headD_append hfront]; exact htype, ?_⟩
      rw [length_append, hfront, length_append, hkeys, hlen]
    rw [hclamp, if_pos hafter, htake, List.take_left' hkeys]

theorem hashablePart_append (h : headerMinSize ≤ raw.length) (tail : Bytes) :
    hashablePart (raw ++ tail) = hashablePart raw ++ tail := by
  obtain ⟨flags, hops, rest, rfl, hrest⟩ := exists_cons_cons h
  have hlong : truncatedHashLen + 1 ≤ (rest ++ tail).length := by
    rw [length_append]
    omega
  rw [cons_append, cons_append, hashablePart_cons_cons hrest,
    hashablePart_cons_cons hlong]
  split
  · rw [List.drop_append_of_le_length (by omega), cons_append]
  · rw [cons_append]

theorem hashablePart_length (h : truncatedHashLen + 1 ≤ rest.length) :
    (hashablePart (flags :: hops :: rest)).length =
      if headerTypeOf flags = headerType2 then rest.length + 1 - truncatedHashLen
      else rest.length + 1 := by
  rw [hashablePart_cons_cons h, length_cons]
  split
  · rw [length_drop]
    omega
  · rfl

theorem signalled_length (h : truncatedHashLen + 1 ≤ rest.length)
    (hs : signalled (hashablePart (flags :: hops :: rest))) : rest.length + 2 =
      (if headerTypeOf flags = headerType2 then headerMaxSize else headerMinSize) +
        (linkECPubSize + linkMTUSize) := by
  have hlen := hs.2
  rw [hashablePart_length h] at hlen
  simp only [truncatedHashLen, linkECPubSize, linkMTUSize, headerMaxSize, headerMinSize] at *
  split at hlen
  · rw [if_pos ‹_›]
    omega
  · rw [if_neg ‹_›]
    omega

theorem shortType2_eq_none (h : headerMaxSize ≤ raw.length) : shortType2 raw = none := by
  match raw with
  | flags :: hops :: rest =>
    have hmax : ¬ rest.length + 2 < headerMaxSize := by simpa using h
    simp only [shortType2, hmax, and_false, if_false]
  | [_] => rfl
  | [] => rfl

theorem kept_clampSignalling (h : headerMinSize ≤ raw.length) (nextMTU previousMTU : Int) :
    Kept raw (clampSignalling nextMTU previousMTU raw) := by
  by_cases hs : signalled (hashablePart raw)
  · have hlen : headerMinSize + (linkECPubSize + linkMTUSize) ≤ raw.length := by
      obtain ⟨flags, hops, rest, rfl, hrest⟩ := exists_cons_cons h
      have := signalled_length hrest hs
      simp only [length_cons, headerMaxSize, headerMinSize] at this ⊢
      split at this <;> omega
    obtain ⟨front, data, rfl, hdata⟩ : ∃ front data : Bytes,
        raw = front ++ data ∧ data.length = linkECPubSize + linkMTUSize := by
      refine ⟨raw.take (raw.length - (linkECPubSize + linkMTUSize)),
        raw.drop (raw.length - (linkECPubSize + linkMTUSize)),
        (take_append_drop _ _).symm, ?_⟩
      rw [length_drop]
      omega
    have hfront : headerMinSize ≤ front.length := by
      rw [length_append] at hlen
      omega
    have hsize : (front ++ data).length - (linkECPubSize + linkMTUSize) = front.length := by
      rw [length_append]
      omega
    have hpart : (hashablePart front).length = truncatedHashLen + 2 := by
      have := hs.2
      rw [hashablePart_append hfront, length_append, hdata] at this
      omega
    have htype : packetTypeOf ((hashablePart front).headD 0) = packetLinkRequest := by
      have := hs.1
      rwa [hashablePart_append hfront, headD_append hpart] at this
    have hout : clampSignalling nextMTU previousMTU (front ++ data) =
        front ++ clampMTU nextMTU previousMTU data := by
      unfold clampSignalling
      rw [if_pos hs, hsize]
      dsimp only
      rw [List.take_left, List.drop_left]
    have hkeys : linkECPubSize ≤ (clampMTU nextMTU previousMTU data).length := by
      have htake : (data.take linkECPubSize).length = linkECPubSize := by
        rw [length_take]
        omega
      obtain hclamp | ⟨signalling, -, hclamp⟩ := clampMTU_cases nextMTU previousMTU hdata
      · rw [hclamp, htake]
      · rw [hclamp, length_append, htake]
        omega
    rw [hout]
    refine ⟨?_, ?_, ?_⟩
    · rw [length_append]
      omega
    · unfold unsignalledPart
      rw [hashablePart_append hfront, hashablePart_append hfront]
      exact unsignalled_clampMTU nextMTU previousMTU hpart hdata htype
    · rw [shortType2_eq_none, shortType2_eq_none]
      · simp only [headerMaxSize, headerMinSize, linkECPubSize, linkMTUSize] at *
        omega
      · rw [length_append]
        simp only [headerMaxSize, headerMinSize, linkECPubSize, linkMTUSize] at *
        omega
  · unfold clampSignalling
    rw [if_neg hs]
    exact ⟨h, rfl, rfl⟩

theorem TransportStep.kept (h : headerMinSize ≤ raw.length) (step : TransportStep) :
    Kept raw (step.apply raw) := by
  cases step with
  | rewrite transportID => exact (rerouted_rewriteForTransport h transportID).kept
  | strip => exact (rerouted_stripTransport h).kept
  | count hops => exact (rerouted_setHops h hops).kept
  | clamp nextMTU previousMTU => exact kept_clampSignalling h nextMTU previousMTU

theorem kept_transported (steps : List TransportStep) (h : headerMinSize ≤ raw.length) :
    Kept raw (transported raw steps) := by
  induction steps generalizing raw with
  | nil => exact ⟨h, rfl, rfl⟩
  | cons step steps ih =>
    have hstep := step.kept h
    exact hstep.trans (ih hstep.long)

/-- What a receiver reads of a packet, apart from how it travelled. -/
structure Identity where
  destHash : Bytes
  context : UInt8
  destType : UInt8
  packetType : UInt8
  data : Bytes

def unsignalledData (packetType : UInt8) (data : Bytes) : Bytes :=
  if packetType = packetLinkRequest ∧ data.length = linkECPubSize + linkMTUSize then
    data.take linkECPubSize
  else data

/-- The identity in a header; the signalling bytes of a link request are left out. -/
def Header.identity (h : Header) : Identity where
  destHash := h.destHash
  context := h.context
  destType := h.destType
  packetType := h.packetType
  data := unsignalledData h.packetType h.data

def hopsOf (raw : Bytes) : UInt8 := raw.getD 1 0

def typeOf (raw : Bytes) : UInt8 := packetTypeOf (raw.headD 0)

def Identity.ofPart : Identity where
  destHash := part.tail.take truncatedHashLen
  context := part.tail.getD truncatedHashLen 0
  destType := destTypeOf (part.headD 0)
  packetType := packetTypeOf (part.headD 0)
  data := part.drop (truncatedHashLen + 2)

theorem drop_unsignalled_eq_nil : (unsignalled part).drop (truncatedHashLen + 2) = [] ↔
      part.drop (truncatedHashLen + 2) = [] := by
  unfold unsignalled
  split
  next hs =>
    have hlen := hs.2
    rw [List.drop_eq_nil_iff, List.drop_eq_nil_iff, length_take]
    simp only [linkECPubSize, linkMTUSize] at *
    omega
  next => rfl

def readPart {α : Type} (read : Bytes → α) (hops : UInt8) (short : Option Nat) (part : Bytes) :
    Except PacketError α :=
  if pathfinderM ≤ hops.toNat then .error .maxHops
  else
    match short with
    | some got => .error (.tooShortType2 headerMaxSize got)
    | none => if part.drop (truncatedHashLen + 2) = [] then .error .emptyData else .ok (read part)

theorem readPart_of_hops (read : Bytes → α) (h : pathfinderM ≤ hops.toNat) (short : Option Nat)
    (part : Bytes) : readPart read hops short part = .error .maxHops := if_pos h

theorem readPart_congr_hops (read : Bytes → α) {hops' : UInt8} (h : hops.toNat < pathfinderM)
    (h' : hops'.toNat < pathfinderM) (short : Option Nat) (part : Bytes) :
    readPart read hops short part = readPart read hops' short part := by
  unfold readPart
  rw [if_neg (Nat.not_le.2 h), if_neg (Nat.not_le.2 h')]

theorem readPart_congr {read read' : Bytes → α} {part part' : Bytes}
    (hnil : part'.drop (truncatedHashLen + 2) = [] ↔ part.drop (truncatedHashLen + 2) = [])
    (hread : read' part' = read part) (hops : UInt8) (short : Option Nat) :
    readPart read hops short part = readPart read' hops short part' := by
  unfold readPart
  simp only [hnil, hread]

theorem map_readPart {β : Type} (f : α → β) (read : Bytes → α) (hops : UInt8) (short : Option Nat)
    (part : Bytes) :
    (readPart read hops short part).map f = readPart (fun p => f (read p)) hops short part := by
  unfold readPart
  split
  · rfl
  · cases short with
    | some got => rfl
    | none =>
      dsimp only
      split <;> rfl

def headerOf (raw part : Bytes) : Header where
  headerType := headerTypeOf (raw.headD 0)
  contextFlag := contextFlagOf (raw.headD 0)
  transportType := transportTypeOf (raw.headD 0)
  destType := destTypeOf (part.headD 0)
  packetType := packetTypeOf (part.headD 0)
  hops := hopsOf raw
  transportID :=
    if headerTypeOf (raw.headD 0) = headerType2 then (raw.drop 2).take truncatedHashLen
    else replicate truncatedHashLen 0
  destHash := part.tail.take truncatedHashLen
  context := part.tail.getD truncatedHashLen 0
  data := part.drop (truncatedHashLen + 2)

theorem unmarshalHeader_eq (h : headerMinSize ≤ raw.length) : unmarshalHeader raw =
      readPart (headerOf raw) (hopsOf raw) (shortType2 raw) (hashablePart raw) := by
  obtain ⟨flags, hops, rest, rfl, hrest⟩ := exists_cons_cons h
  obtain ⟨-, -, -, hdest, hpacket⟩ := flags_table flags
  have hmin : ¬ rest.length + 2 < headerMinSize := by simpa using h
  have hhops : hopsOf (flags :: hops :: rest) = hops := rfl
  rw [hashablePart_cons_cons hrest]
  simp only [unmarshalHeader, readPart, if_neg hmin, hhops, shortType2]
  split
  · rfl
  · split
    · rfl
    · simp only [List.drop_succ_cons, headerOf, List.headD_cons, List.tail_cons, hdest, hpacket,
        hhops, List.drop_zero]

theorem ofPart_unsignalled (raw part : Bytes) :
    Identity.ofPart (unsignalled part) = (headerOf raw part).identity := by
  simp only [Header.identity, headerOf]
  unfold unsignalled
  split
  next hs =>
    obtain ⟨htype, hlen⟩ := hs
    have hdata : (part.drop (truncatedHashLen + 2)).length = linkECPubSize + linkMTUSize := by
      rw [length_drop, hlen, Nat.add_sub_cancel_left]
    have hkeys : unsignalledData (packetTypeOf (part.headD 0)) (part.drop (truncatedHashLen + 2)) =
        (part.drop (truncatedHashLen + 2)).take linkECPubSize := if_pos ⟨htype, hdata⟩
    rw [hkeys]
    cases part with
    | nil => rfl
    | cons flags body =>
      simp [Identity.ofPart, truncatedHashLen, linkECPubSize, List.take_take, List.drop_take]
  next hs =>
    have hdata : ¬ (packetTypeOf (part.headD 0) = packetLinkRequest ∧
        (part.drop (truncatedHashLen + 2)).length = linkECPubSize + linkMTUSize) := by
      rintro ⟨htype, hlen⟩
      refine hs ⟨htype, ?_⟩
      rw [length_drop] at hlen
      simp only [linkECPubSize, linkMTUSize] at *
      omega
    have hall : unsignalledData (packetTypeOf (part.headD 0)) (part.drop (truncatedHashLen + 2)) =
        part.drop (truncatedHashLen + 2) := if_neg hdata
    rw [hall]
    rfl

theorem identity_unmarshalHeader (h : headerMinSize ≤ raw.length) :
    (unmarshalHeader raw).map Header.identity =
      readPart Identity.ofPart (hopsOf raw) (shortType2 raw) (unsignalledPart raw) := by
  rw [unmarshalHeader_eq h, map_readPart]
  exact readPart_congr (drop_unsignalled_eq_nil _) (ofPart_unsignalled raw _) _ _

theorem take_unsignalled : (unsignalled part).take (truncatedHashLen + 2 + linkECPubSize) =
      part.take (truncatedHashLen + 2 + linkECPubSize) := by
  unfold unsignalled
  split
  · rw [List.take_take, Nat.min_self]
  · rfl

theorem withoutSignalling_drop : withoutSignalling part (part.drop (truncatedHashLen + 2)).length =
      part.take (truncatedHashLen + 2 + linkECPubSize) := by
  rw [length_drop]
  unfold withoutSignalling
  split
  next hlong =>
    have hsize : part.length - (part.length - (truncatedHashLen + 2) - linkECPubSize) =
        truncatedHashLen + 2 + linkECPubSize := by omega
    rw [hsize]
  next hlong => rw [List.take_of_length_le (by omega)]

theorem linkIDFromRequestPacket_eq (sha256 : Bytes → Bytes) (h : headerMinSize ≤ raw.length) :
    linkIDFromRequestPacket sha256 raw =
      readPart (fun part =>
          (sha256 (part.take (truncatedHashLen + 2 + linkECPubSize))).take truncatedHashLen)
        (hopsOf raw) (shortType2 raw) (unsignalledPart raw) := by
  have hmap : linkIDFromRequestPacket sha256 raw = (unmarshalHeader raw).map fun h =>
      (sha256 (withoutSignalling (hashablePart raw) h.data.length)).take truncatedHashLen := by
    unfold linkIDFromRequestPacket
    cases unmarshalHeader raw <;> rfl
  rw [hmap, unmarshalHeader_eq h, map_readPart]
  refine readPart_congr (drop_unsignalled_eq_nil _) ?_ _ _
  dsimp only [headerOf]
  rw [take_unsignalled, withoutSignalling_drop]

theorem headD_unsignalled : (unsignalled part).headD 0 = part.headD 0 := by
  unfold unsignalled
  split
  · cases part <;> rfl
  · rfl

section
variable (h : headerMinSize ≤ raw.length)
include h

theorem headD_hashablePart : packetTypeOf ((hashablePart raw).headD 0) = typeOf raw := by
  obtain ⟨flags, hops, rest, rfl, hrest⟩ := exists_cons_cons h
  rw [hashablePart_cons_cons hrest]
  exact (flags_table flags).2.2.2.2

theorem typeOf_eq : typeOf raw = packetTypeOf ((unsignalledPart raw).headD 0) := by
  unfold unsignalledPart
  rw [headD_unsignalled, headD_hashablePart h]

theorem unsignalledPart_eq (htype : typeOf raw ≠ packetLinkRequest) :
    unsignalledPart raw = hashablePart raw := by
  refine if_neg fun hs => htype ?_
  rw [← headD_hashablePart h]
  exact hs.1

end

section
variable (h : headerMinSize ≤ raw.length) {hdr : Header}
include h

theorem exists_append_data :
    ∃ front, raw = front ++ (hashablePart raw).drop (truncatedHashLen + 2) := by
  obtain ⟨flags, hops, rest, rfl, hrest⟩ := exists_cons_cons h
  rw [hashablePart_cons_cons hrest, List.drop_succ_cons]
  split
  · refine ⟨flags :: hops :: rest.take (truncatedHashLen + (truncatedHashLen + 1)), ?_⟩
    rw [List.drop_drop, cons_append, cons_append, take_append_drop]
  · refine ⟨flags :: hops :: rest.take (truncatedHashLen + 1), ?_⟩
    rw [cons_append, cons_append, take_append_drop]

theorem data_of_unmarshalHeader (hread : unmarshalHeader raw = .ok hdr) :
    hdr.packetType = packetTypeOf ((hashablePart raw).headD 0) ∧
      hdr.data = (hashablePart raw).drop (truncatedHashLen + 2) := by
  rw [unmarshalHeader_eq h] at hread
  unfold readPart at hread
  split at hread
  · cases hread
  · split at hread
    · cases hread
    · split at hread
      · cases hread
      · cases hread
        exact ⟨rfl, rfl⟩

theorem forwardedBytes_eq (hread : unmarshalHeader raw = .ok hdr) (direct : Bool)
    (nextHop : Vector UInt8 truncatedHashLen) (hops : UInt8) (nextMTU previousMTU : Int) :
    forwardedBytes raw hdr direct nextHop hops nextMTU previousMTU =
      transported raw
        [if direct then .strip else .rewrite nextHop, .count hops, .clamp nextMTU previousMTU] := by
  obtain ⟨htype, hdata⟩ := data_of_unmarshalHeader h hread
  generalize hout : setHops hops
    (if direct then stripTransport raw else rewriteForTransport raw nextHop) = out
  have hrerouted : Rerouted raw out := by
    rw [← hout]
    cases direct with
    | true =>
      have hstrip := rerouted_stripTransport h
      exact hstrip.trans (rerouted_setHops hstrip.long hops)
    | false =>
      have hrewrite := rerouted_rewriteForTransport h nextHop
      exact hrewrite.trans (rerouted_setHops hrewrite.long hops)
  have hchain : transported raw
      [if direct then .strip else .rewrite nextHop, .count hops, .clamp nextMTU previousMTU] =
        clampSignalling nextMTU previousMTU out := by
    rw [← hout]
    cases direct <;> rfl
  have hguard : (hdr.packetType = packetLinkRequest ∧
      hdr.data.length = linkECPubSize + linkMTUSize) ↔ signalled (hashablePart out) := by
    rw [htype, hdata, hrerouted.part, length_drop]
    refine and_congr_right fun _ => ?_
    simp only [linkECPubSize, linkMTUSize]
    omega
  unfold forwardedBytes clampSignalling at *
  rw [hchain, hout]
  by_cases hs : signalled (hashablePart out)
  · have hlen := (hguard.2 hs).2
    obtain ⟨front, hfront⟩ := exists_append_data hrerouted.long
    rw [hrerouted.part, ← hdata] at hfront
    have hsize : out.length - (linkECPubSize + linkMTUSize) = front.length := by
      rw [hfront, length_append, hlen, Nat.add_sub_cancel]
    have hdrop : out.drop front.length = hdr.data := by
      rw [hfront, List.drop_left]
    have hkeys : out.take (out.length - linkMTUSize) =
        out.take front.length ++ hdr.data.take linkECPubSize := by
      rw [hfront, List.take_left, length_append, hlen, ← Nat.add_assoc, Nat.add_sub_cancel,
        List.take_append, Nat.add_sub_cancel_left, List.take_of_length_le (Nat.le_add_right ..)]
    dsimp only
    rw [if_pos (hguard.2 hs), if_pos hs, hsize, hdrop, clampMTU, if_pos hlen, hkeys]
    generalize parseSignalling _ = found
    obtain ⟨pathMTU, mode⟩ := found
    dsimp only
    split
    · rfl
    · refine Eq.trans ?_ (apply_ite (out.take front.length ++ ·) _ _ _).symm
      rw [← List.append_assoc, ← hdrop, take_append_drop]
  · rw [if_neg fun hc => hs (hguard.1 hc), if_neg hs]

end

/-- A link request with a transport header that signals an MTU of 8192. -/
def signallingRequest : Bytes := 0x52 :: 3 :: (replicate 33 0 ++ replicate 64 9 ++ [0x20, 0x20, 0])

/-- The transport header is taken off, and the MTU of the next interface signalled. -/
theorem forwardedBytes_eq_single : ∃ hdr, unmarshalHeader signallingRequest = .ok hdr ∧
    transported signallingRequest [.strip, .count 4, .clamp 500 1064] =
      2 :: 4 :: (replicate 17 0 ++ replicate 64 9 ++ [0x20, 1, 0xF4]) ∧
    forwardedBytes signallingRequest hdr true (.replicate _ 0) 4 500 1064 =
      transported signallingRequest [.strip, .count 4, .clamp 500 1064] :=
  ⟨_, rfl, by decide, forwardedBytes_eq (by decide) rfl true _ 4 500 1064⟩

/-- Over every chain of transport steps, the hashable part of a packet that is no link request
stays the same, and so do, while the hop count is below its limit at both ends, the id of the
link and everything that is read of the packet apart from how it travelled. -/
theorem transported_identity (sha256 : Bytes → Bytes) (raw : Bytes)
    (h : headerMinSize ≤ raw.length) (steps : List TransportStep) :
    (typeOf raw ≠ packetLinkRequest →
      hashablePart (transported raw steps) = hashablePart raw ∧
        packetHash sha256 (transported raw steps) = packetHash sha256 raw) ∧
    ((hopsOf raw).toNat < pathfinderM → (hopsOf (transported raw steps)).toNat < pathfinderM →
      linkIDFromRequestPacket sha256 (transported raw steps) = linkIDFromRequestPacket sha256 raw ∧
        (unmarshalHeader (transported raw steps)).map Header.identity =
          (unmarshalHeader raw).map Header.identity) ∧
    (pathfinderM ≤ (hopsOf (transported raw steps)).toNat →
      linkIDFromRequestPacket sha256 (transported raw steps) = .error .maxHops ∧
        unmarshalHeader (transported raw steps) = .error .maxHops) := by
  have hkept := kept_transported steps h
  refine ⟨?_, ?_, ?_⟩
  · intro htype
    have htype' : typeOf (transported raw steps) ≠ packetLinkRequest := by
      rw [typeOf_eq hkept.long, hkept.part, ← typeOf_eq h]
      exact htype
    have hpart : hashablePart (transported raw steps) = hashablePart raw := by
      rw [← unsignalledPart_eq hkept.long htype', ← unsignalledPart_eq h htype, hkept.part]
    refine ⟨hpart, ?_⟩
    unfold packetHash
    rw [hpart]
  · intro hbefore hafter
    constructor
    · rw [linkIDFromRequestPacket_eq _ hkept.long, linkIDFromRequestPacket_eq _ h, hkept.part,
        hkept.short]
      exact readPart_congr_hops _ hafter hbefore _ _
    · rw [identity_unmarshalHeader hkept.long, identity_unmarshalHeader h, hkept.part, hkept.short]
      exact readPart_congr_hops _ hafter hbefore _ _
  · intro hafter
    constructor
    · rw [linkIDFromRequestPacket_eq _ hkept.long, readPart_of_hops _ hafter]
    · rw [unmarshalHeader_eq hkept.long, readPart_of_hops _ hafter]

theorem transported_identity_single : headerMinSize ≤ (2 :: 0 :: replicate 84 0 : Bytes).length ∧
      linkIDFromRequestPacket id (transported (2 :: 0 :: replicate 84 0)
          [.rewrite (Vector.replicate _ 1), .count 1, .clamp 0 500, .strip, .count 2]) =
        linkIDFromRequestPacket id (2 :: 0 :: replicate 84 0) := by
  have hlen : headerMinSize ≤ (2 :: 0 :: replicate 84 0 : Bytes).length := by decide
  refine ⟨hlen, ?_⟩
  exact ((transported_identity id _ hlen _).2.1 (by decide) (by decide +kernel)).1

/-- A link request that is forwarded with the last hop count below the limit is read by no
node any more. -/
theorem transported_identity_max_hops : typeOf (2 :: 127 :: replicate 81 0) = packetLinkRequest ∧
      headerMinSize ≤ (2 :: 127 :: replicate 81 0 : Bytes).length ∧
      ∀ sha256 : Bytes → Bytes,
        linkIDFromRequestPacket sha256 (transported (2 :: 127 :: replicate 81 0) [.count 128]) ≠
          linkIDFromRequestPacket sha256 (2 :: 127 :: replicate 81 0) := by
  have hout : unmarshalHeader (transported (2 :: 127 :: replicate 81 0) [.count 128]) =
      .error .maxHops := by decide +kernel
  have hraw : ∃ h, unmarshalHeader (2 :: 127 :: replicate 81 0) = .ok h := ⟨_, rfl⟩
  obtain ⟨hdr, hraw⟩ := hraw
  refine ⟨by decide, by decide, fun sha256 => ?_⟩
  unfold linkIDFromRequestPacket
  rw [hout, hraw]
  exact fun h => nomatch h

end MeshsatHub.Rnswire
