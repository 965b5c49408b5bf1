import MeshsatHub.Foundations.Delimited

/-!
# HDLC framing

A packet goes between two flag bytes, with every flag and escape byte inside it escaped.
`HDLCFrameReader.feed` takes the stream in pieces and applies its bound, `hdlcMaxBuffered`, before
it reads the frames that the new piece completes.
-/

namespace MeshsatHub.Rnswire
open Delimited List

abbrev Bytes := List UInt8

def headerMinSize : Nat := 19

/-- The largest packet a TCP interface carries. -/
def hwMTU : Nat := 262144

/-- The frame delimiter. -/
def hdlcFlag : UInt8 := 0x7E

def hdlcEsc : UInt8 := 0x7D

def hdlcEscMask : UInt8 := 0x20

/-- What the reader holds at most while it waits for a closing flag. -/
def hdlcMaxBuffered : Nat := 2 * 262144 + 2

/-- One turn of the loop of `hdlcEscape`. -/
def hdlcEscapeByte (b : UInt8) : Bytes :=
  if b = hdlcEsc then [hdlcEsc, hdlcEsc ^^^ hdlcEscMask]
  else if b = hdlcFlag then [hdlcEsc, hdlcFlag ^^^ hdlcEscMask]
  else [b]

variable (data : Bytes)

def hdlcEscape : Bytes := data.flatMap hdlcEscapeByte

/-- Undo the escaping; an escape byte at the very end stands for itself. -/
def hdlcUnescape : Bytes → Bytes
  | [] => []
  | [b] => [b]
  | b :: c :: rest =>
    if b = hdlcEsc then (c ^^^ hdlcEscMask) :: hdlcUnescape rest
    else b :: hdlcUnescape (c :: rest)

def hdlcFrame : Bytes := hdlcFlag :: (hdlcEscape data ++ [hdlcFlag])

/-- The packet between two flags; what is shorter than a header is passed over. -/
def readFrame (escaped : Bytes) : Option Bytes :=
  if headerMinSize ≤ escaped.length then some (hdlcUnescape escaped) else none

structure HDLCFrameReader where
  buf : Bytes

def newHDLCFrameReader : HDLCFrameReader := ⟨[]⟩

def trim (buf : Bytes) : Bytes :=
  if hdlcMaxBuffered < buf.length then
    if hdlcMaxBuffered < (lastOpen hdlcFlag buf).length then [] else lastOpen hdlcFlag buf
  else buf

/-- Take the next piece of the stream and return the packets it completes. -/
def HDLCFrameReader.feed (r : HDLCFrameReader) (data : Bytes) : List Bytes × HDLCFrameReader :=
  let read := parse hdlcFlag readFrame (trim (r.buf ++ data))
  (read.1, ⟨read.2⟩)

/-- Everything the reader returns over the pieces of a stream. -/
def HDLCFrameReader.feedAll : HDLCFrameReader → List Bytes → List Bytes
  | _, [] => []
  | r, data :: later => (r.feed data).1 ++ (r.feed data).2.feedAll later

/-- After what was read of a stream, no further piece and the bytes since the last flag before
it exceed the bound together. -/
def Fits : Bytes → List Bytes → Prop
  | _, [] => True
  | read, data :: later =>
    (lastOpen hdlcFlag read).length + data.length ≤ hdlcMaxBuffered ∧ Fits (read ++ data) later

instance decidableFits : (read : Bytes) → (pieces : List Bytes) → Decidable (Fits read pieces)
  | _, [] => .isTrue trivial
  | read, data :: later =>
    have := decidableFits (read ++ data) later
    inferInstanceAs (Decidable ((lastOpen hdlcFlag read).length + data.length ≤
      hdlcMaxBuffered ∧ Fits (read ++ data) later))

def Sendable (packets : List Bytes) : Prop :=
  ∀ packet ∈ packets, headerMinSize ≤ packet.length ∧ packet.length ≤ hwMTU

instance (packets : List Bytes) : Decidable (Sendable packets) :=
  inferInstanceAs (Decidable (∀ packet ∈ packets, _))

theorem hdlcUnescape_cons_of_ne {b : UInt8} (h : b ≠ hdlcEsc) (rest : Bytes) :
    hdlcUnescape (b :: rest) = b :: hdlcUnescape rest := by
  cases rest with
  | nil => rfl
  | cons c rest => rw [hdlcUnescape, if_neg h]

theorem hdlcUnescape_escapeByte (b : UInt8) (rest : Bytes) :
    hdlcUnescape (hdlcEscapeByte b ++ rest) = b :: hdlcUnescape rest := by
  unfold hdlcEscapeByte
  split
  case isTrue hesc =>
    subst hesc
    rfl
  case isFalse hesc =>
    split
    case isTrue hflag =>
      subst hflag
      rfl
    case isFalse => exact hdlcUnescape_cons_of_ne hesc rest

theorem hdlcUnescape_hdlcEscape : hdlcUnescape (hdlcEscape data) = data := by
  induction data with
  | nil => rfl
  | cons b data ih =>
    rw [hdlcEscape, flatMap_cons, hdlcUnescape_escapeByte]
    exact congrArg (b :: ·) ih

theorem hdlcFlag_notMem_escapeByte (b : UInt8) : hdlcFlag ∉ hdlcEscapeByte b := by
  unfold hdlcEscapeByte
  split
  · decide
  · split
    · decide
    · rename_i hflag
      simpa using fun h : hdlcFlag = b => hflag h.symm

theorem hdlcFlag_notMem_hdlcEscape : hdlcFlag ∉ hdlcEscape data := by
  intro h
  obtain ⟨b, -, hb⟩ := mem_flatMap.1 h
  exact hdlcFlag_notMem_escapeByte b hb

theorem length_hdlcEscapeByte (b : UInt8) :
    1 ≤ (hdlcEscapeByte b).length ∧ (hdlcEscapeByte b).length ≤ 2 := by
  unfold hdlcEscapeByte
  split
  · decide
  · split <;> simp

theorem length_hdlcEscape :
    data.length ≤ (hdlcEscape data).length ∧ (hdlcEscape data).length ≤ 2 * data.length := by
  induction data with
  | nil => simp [hdlcEscape]
  | cons b data ih =>
    have hb := length_hdlcEscapeByte b
    simp only [hdlcEscape, flatMap_cons, length_append, length_cons] at ih ⊢
    omega

theorem length_hdlcFrame : (hdlcFrame data).length = (hdlcEscape data).length + 2 := by
  simp [hdlcFrame]

theorem readFrame_hdlcEscape {data : Bytes} (h : headerMinSize ≤ data.length) :
    readFrame (hdlcEscape data) = some data := by
  rw [readFrame, if_pos (Nat.le_trans h (length_hdlcEscape data).1), hdlcUnescape_hdlcEscape]

/-! ## A stream of frames -/

def stream (packets : List Bytes) : Bytes := packets.flatMap hdlcFrame

/-- Nothing, or the closing flag of the frame before. -/
def IsGap (gap : Bytes) : Prop := gap = [] ∨ gap = [hdlcFlag]

variable {gap rest packet : Bytes} {packets : List Bytes}

theorem parse_frame (hgap : IsGap gap) (hpacket : headerMinSize ≤ packet.length)
    (rest : Bytes) : (parse hdlcFlag readFrame (gap ++ (hdlcFrame packet ++ rest))).1 =
      packet :: (parse hdlcFlag readFrame (hdlcFlag :: rest)).1 := by
  have hframe :
      parse hdlcFlag readFrame (hdlcFlag :: (hdlcEscape packet ++ hdlcFlag :: rest)) = _ :=
    parse_closed not_mem_nil (hdlcFlag_notMem_hdlcEscape packet)
  have hshape : hdlcFrame packet ++ rest = hdlcFlag :: (hdlcEscape packet ++ hdlcFlag :: rest) := by
    simp [hdlcFrame]
  rw [hshape]
  obtain rfl | rfl := hgap
  · rw [nil_append, hframe, readFrame_hdlcEscape hpacket]
    rfl
  · have hempty : parse hdlcFlag readFrame
        (hdlcFlag :: ([] ++ hdlcFlag :: (hdlcEscape packet ++ hdlcFlag :: rest))) = _ :=
      parse_closed not_mem_nil not_mem_nil
    rw [singleton_append]
    rw [nil_append] at hempty
    rw [hempty, hframe, readFrame_hdlcEscape hpacket]
    rfl

theorem parse_stream (hgap : IsGap gap) (h : Sendable packets) :
    (parse hdlcFlag readFrame (gap ++ stream packets)).1 = packets := by
  induction packets generalizing gap with
  | nil => rcases hgap with rfl | rfl <;> rfl
  | cons packet packets ih =>
    have hpackets := forall_mem_cons.1 h
    rw [stream, flatMap_cons, parse_frame hgap hpackets.1.1]
    exact congrArg (packet :: ·) (ih (.inr rfl) hpackets.2)

theorem hdlcFlag_mem_of_append_eq_stream {held : Bytes} (h : held ++ rest = stream packets)
    (hheld : held ≠ []) : hdlcFlag ∈ held := by
  cases packets with
  | nil => exact absurd (append_eq_nil_iff.1 h).1 hheld
  | cons packet packets =>
    cases held with
    | nil => exact absurd rfl hheld
    | cons b held =>
      obtain rfl : b = hdlcFlag := by
        simpa [stream, hdlcFrame] using congrArg head? h
      exact mem_cons_self

theorem lastOpen_of_append_eq_stream {read : Bytes} (hpackets : Sendable packets)
    (h : read ++ rest = stream packets) :
    ∃ gap part later, IsGap gap ∧ Sendable later ∧ part ++ rest = stream later ∧
      lastOpen hdlcFlag read = gap ++ part := by
  induction packets generalizing read with
  | nil =>
    obtain ⟨rfl, rfl⟩ := append_eq_nil_iff.1 h
    exact ⟨[], [], [], .inl rfl, hpackets, rfl, rfl⟩
  | cons packet packets ih =>
    rcases append_eq_append_iff.1 (h.trans flatMap_cons) with
      ⟨missing, hframe, hrest⟩ | ⟨more, rfl, hmore⟩
    · -- the first frame is not complete, or has just been completed
      obtain rfl | ⟨missing, b, rfl⟩ := eq_nil_or_concat missing
      · refine ⟨[hdlcFlag], [], packets, .inr rfl, (forall_mem_cons.1 hpackets).2, hrest, ?_⟩
        rw [append_nil] at hframe
        rw [← hframe, hdlcFrame, ← cons_append, lastOpen_append _ mem_cons_self]
        rfl
      · refine ⟨[], read, packet :: packets, .inl rfl, hpackets, h, ?_⟩
        rw [concat_eq_append, ← append_assoc, hdlcFrame, ← cons_append] at hframe
        obtain ⟨hopen, -⟩ := append_inj' hframe rfl
        cases read with
        | nil => rfl
        | cons first read =>
          obtain ⟨rfl, hescaped⟩ := cons.inj hopen
          refine lastOpen_cons fun hmem => hdlcFlag_notMem_hdlcEscape packet ?_
          rw [hescaped]
          exact mem_append_left _ hmem
    · obtain ⟨gap, part, later, hgap, hlater, hpart, hheld⟩ :=
        ih (forall_mem_cons.1 hpackets).2 hmore.symm
      by_cases hnil : more = []
      · subst hnil
        refine ⟨[hdlcFlag], [], packets, .inr rfl, (forall_mem_cons.1 hpackets).2, hmore.symm, ?_⟩
        rw [append_nil, hdlcFrame, ← cons_append, lastOpen_append _ mem_cons_self]
        rfl
      · refine ⟨gap, part, later, hgap, hlater, hpart, ?_⟩
        rw [lastOpen_append _ (hdlcFlag_mem_of_append_eq_stream hmore.symm hnil), hheld]

theorem length_le_of_parse_eq_nil {part : Bytes} (hgap : IsGap gap) (hpackets : Sendable packets)
    (h : part ++ rest = stream packets) (hnil : (parse hdlcFlag readFrame (gap ++ part)).1 = []) :
    (gap ++ part).length ≤ hdlcMaxBuffered := by
  have hgapLength : gap.length ≤ 1 := by
    obtain rfl | rfl := hgap <;> simp
  cases packets with
  | nil =>
    obtain ⟨rfl, rfl⟩ := append_eq_nil_iff.1 h
    simp only [append_nil, hdlcMaxBuffered]
    omega
  | cons packet packets =>
    obtain ⟨hpacket, -⟩ := forall_mem_cons.1 hpackets
    rcases append_eq_append_iff.1 (h.trans flatMap_cons) with
      ⟨missing, hframe, -⟩ | ⟨more, rfl, -⟩
    · obtain rfl | ⟨missing, b, rfl⟩ := eq_nil_or_concat missing
      · -- the part would be the whole frame
        rw [append_nil] at hframe
        rw [← hframe, ← append_nil (hdlcFrame packet), parse_frame hgap hpacket.1] at hnil
        cases hnil
      · have hlength := congrArg length hframe
        have hescape := (length_hdlcEscape packet).2
        have hmtu := hpacket.2
        rw [length_hdlcFrame] at hlength
        simp only [length_append, concat_eq_append, length_singleton,
          hdlcMaxBuffered, hwMTU] at hlength hmtu ⊢
        omega
    · rw [parse_frame hgap hpacket.1] at hnil
      cases hnil

variable {r : HDLCFrameReader} {data : Bytes} {pieces : List Bytes}

theorem feed_of_fits (h : r.buf.length + data.length ≤ hdlcMaxBuffered) :
    r.feed data = ((parse hdlcFlag readFrame (r.buf ++ data)).1,
      ⟨(parse hdlcFlag readFrame (r.buf ++ data)).2⟩) := by
  have htrim : trim (r.buf ++ data) = r.buf ++ data := if_neg (by rw [length_append]; omega)
  rw [HDLCFrameReader.feed, htrim]

variable {read : Bytes} {packets : List Bytes}

theorem feed_buf_of_fits (hbuf : r.buf = lastOpen hdlcFlag read)
    (h : r.buf.length + data.length ≤ hdlcMaxBuffered) :
    (r.feed data).2.buf = lastOpen hdlcFlag (read ++ data) := by
  rw [feed_of_fits h, parse_rest, hbuf, lastOpen_lastOpen_append]

theorem feed_of_not_fits (h : ¬r.buf.length + data.length ≤ hdlcMaxBuffered) :
    (r.feed data).1 = [] ∧
      ((r.feed data).2.buf = [] ∨
        (r.feed data).2.buf = (parse hdlcFlag readFrame (r.buf ++ data)).2) := by
  have hover : hdlcMaxBuffered < (r.buf ++ data).length := by
    rw [length_append]
    omega
  rw [HDLCFrameReader.feed, trim, if_pos hover, parse_rest (r.buf ++ data)]
  split
  · exact ⟨rfl, .inl rfl⟩
  · rw [parse_lastOpen]
    exact ⟨rfl, .inr rfl⟩

theorem feedAll_of_fits (hbuf : r.buf = lastOpen hdlcFlag read) (h : Fits read pieces) :
    r.feedAll pieces = (parse hdlcFlag readFrame (r.buf ++ pieces.flatten)).1 := by
  induction pieces generalizing r read with
  | nil =>
    rw [flatten_nil, append_nil, hbuf, parse_lastOpen]
    rfl
  | cons data later ih =>
    have hfits : r.buf.length + data.length ≤ hdlcMaxBuffered := by
      rw [hbuf]
      exact h.1
    rw [HDLCFrameReader.feedAll, ih (feed_buf_of_fits hbuf hfits) h.2, feed_of_fits hfits,
      flatten_cons, ← append_assoc, parse_append (r.buf ++ data)]

theorem length_feedAll_le (r : HDLCFrameReader) (pieces : List Bytes) :
    (r.feedAll pieces).length ≤ (parse hdlcFlag readFrame (r.buf ++ pieces.flatten)).1.length := by
  induction pieces generalizing r with
  | nil => exact Nat.zero_le _
  | cons data later ih =>
    rw [HDLCFrameReader.feedAll, flatten_cons, ← append_assoc,
      parse_append (r.buf ++ data), length_append, length_append]
    refine Nat.add_le_add ?_ ((ih _).trans ?_)
    · by_cases hfits : r.buf.length + data.length ≤ hdlcMaxBuffered
      · rw [feed_of_fits hfits]
      · rw [(feed_of_not_fits hfits).1]
        exact Nat.zero_le _
    · by_cases hfits : r.buf.length + data.length ≤ hdlcMaxBuffered
      · rw [feed_of_fits hfits]
      · obtain hbuf | hbuf := (feed_of_not_fits hfits).2 <;> rw [hbuf]
        exact length_parse_le_append _ _

theorem length_feedAll_lt_of_not_fits (hpackets : Sendable packets)
    (hstream : read ++ pieces.flatten = stream packets) (hbuf : r.buf = lastOpen hdlcFlag read)
    (h : ¬Fits read pieces) : (r.feedAll pieces).length <
      (parse hdlcFlag readFrame (r.buf ++ pieces.flatten)).1.length := by
  induction pieces generalizing r read with
  | nil => exact absurd trivial h
  | cons data later ih =>
    rw [flatten_cons, ← append_assoc] at hstream
    have hle := length_feedAll_le (r.feed data).2 later
    rw [HDLCFrameReader.feedAll, flatten_cons, ← append_assoc,
      parse_append (r.buf ++ data), length_append, length_append]
    by_cases hfits : r.buf.length + data.length ≤ hdlcMaxBuffered
    · have hlater : ¬Fits (read ++ data) later := fun hlater => h ⟨hbuf ▸ hfits, hlater⟩
      have hlt := ih hstream (feed_buf_of_fits hbuf hfits) hlater
      rw [feed_of_fits hfits] at hlt ⊢
      exact Nat.add_lt_add_left hlt _
    · have hcompletes : (parse hdlcFlag readFrame (r.buf ++ data)).1 ≠ [] := by
        intro hnil
        rw [append_assoc] at hstream
        obtain ⟨gap, part, packets', hgap, hsendable, hpart, hheld⟩ :=
          lastOpen_of_append_eq_stream hpackets hstream
        rw [← append_assoc] at hpart
        rw [hbuf, hheld, append_assoc] at hnil
        have hlength := length_le_of_parse_eq_nil hgap hsendable hpart hnil
        rw [← append_assoc, ← hheld, ← hbuf, length_append] at hlength
        exact hfits hlength
      have hpositive := length_pos_iff.2 hcompletes
      have hkept : (parse hdlcFlag readFrame ((r.feed data).2.buf ++ later.flatten)).1.length ≤
          (parse hdlcFlag readFrame ((parse hdlcFlag readFrame (r.buf ++ data)).2 ++
            later.flatten)).1.length := by
        obtain hbuf' | hbuf' := (feed_of_not_fits hfits).2 <;> rw [hbuf']
        exact length_parse_le_append _ _
      rw [(feed_of_not_fits hfits).1]
      simp only [length_nil]
      omega

theorem feedAll_ne_of_not_fits (hpackets : Sendable packets)
    (hcut : pieces.flatten = stream packets) (h : ¬Fits [] pieces) :
    newHDLCFrameReader.feedAll pieces ≠ packets := by
  intro hall
  have hread : [] ++ pieces.flatten = stream packets := hcut
  have hbuf : newHDLCFrameReader.buf = lastOpen hdlcFlag [] := rfl
  have hlt := length_feedAll_lt_of_not_fits hpackets hread hbuf h
  have hparse : (parse hdlcFlag readFrame (newHDLCFrameReader.buf ++ stream packets)).1 = packets :=
    parse_stream (.inl rfl) hpackets
  rw [hcut, hparse, hall] at hlt
  exact Nat.lt_irrefl _ hlt

/-- A reader gives back the packets of a stream exactly if no piece and the bytes since the last
flag before it exceed the bound together. -/
theorem feedAll_eq_packets_iff {packets pieces : List Bytes} (hpackets : Sendable packets)
    (hcut : pieces.flatten = stream packets) :
    newHDLCFrameReader.feedAll pieces = packets ↔ Fits [] pieces := by
  constructor
  · intro hall
    by_contra hover
    exact feedAll_ne_of_not_fits hpackets hcut hover hall
  · intro hfits
    have hbuf : newHDLCFrameReader.buf = lastOpen hdlcFlag [] := rfl
    rw [feedAll_of_fits hbuf hfits, hcut]
    exact parse_stream (.inl rfl) hpackets

def smallPacket : Bytes := replicate headerMinSize 0x7E

/-- Two frames arrive in three pieces, cut inside an escape and inside a gap. -/
theorem feedAll_eq_packets_three_pieces : newHDLCFrameReader.feedAll
      [(stream [smallPacket, smallPacket]).take 2,
        ((stream [smallPacket, smallPacket]).drop 2).take 38,
        ((stream [smallPacket, smallPacket]).drop 2).drop 38] = [smallPacket, smallPacket] :=
  (feedAll_eq_packets_iff (by decide) (by decide)).2 (by decide +kernel)

theorem not_fits_two_large (h : packet.length = hwMTU) : ¬Fits [] [stream [packet, packet]] := by
  rintro ⟨hfits, -⟩
  have hescape := (length_hdlcEscape packet).1
  simp only [stream, flatMap_cons, flatMap_nil, length_append, length_hdlcFrame,
    lastOpen_of_not_mem not_mem_nil, length_nil, hdlcMaxBuffered] at hfits
  rw [h, hwMTU] at hescape
  omega

theorem sendable_two_large (h : packet.length = hwMTU) : Sendable [packet, packet] := by
  intro packet' hpacket'
  obtain rfl : packet' = packet := by simpa using hpacket'
  rw [h]
  decide

def largePacket : Bytes := replicate hwMTU 0x41

/-- Two such packets that arrive in one piece are lost. -/
theorem feedAll_loses_packets : Sendable [largePacket, largePacket] ∧
      newHDLCFrameReader.feedAll [stream [largePacket, largePacket]] ≠
        [largePacket, largePacket] := by
  have hlength : largePacket.length = hwMTU := length_replicate
  exact ⟨sendable_two_large hlength, feedAll_ne_of_not_fits (sendable_two_large hlength)
    flatten_singleton (not_fits_two_large hlength)⟩

end MeshsatHub.Rnswire
