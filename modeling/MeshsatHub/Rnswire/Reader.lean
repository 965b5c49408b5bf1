import MeshsatHub.Rnswire.Hdlc

/-!
# What a frame reader holds and returns

Whatever a peer sends, the reader holds nothing or one flag and the bytes after it, never more than
`hdlcMaxBuffered`, and its loop ends. `extract` is the loop of `feed` with nothing as its outcome as
long as it has not ended.
-/

namespace MeshsatHub.Rnswire
open Delimited List

/-- The loop of `feed` after so many turns at most: nothing, if it goes on. -/
def extract : Nat → Bytes → Option (List Bytes × Bytes)
  | 0, _ => none
  | fuel + 1, buf =>
    match buf.dropWhile (· ≠ hdlcFlag) with
    | [] => some ([], [])
    | first :: rest =>
      match rest.dropWhile (· ≠ hdlcFlag) with
      | [] => some ([], first :: rest)
      | next :: later =>
        (extract fuel (next :: later)).map fun more =>
          ((readFrame (rest.takeWhile (· ≠ hdlcFlag))).toList ++ more.1, more.2)

/-- The reader after the pieces of a stream. -/
def HDLCFrameReader.fed : HDLCFrameReader → List Bytes → HDLCFrameReader
  | r, [] => r
  | r, data :: later => (r.feed data).2.fed later

/-- No piece and what the reader holds before it exceed the bound together. -/
def HDLCFrameReader.Within : HDLCFrameReader → List Bytes → Prop
  | _, [] => True
  | r, data :: later => r.buf.length + data.length ≤ hdlcMaxBuffered ∧ (r.feed data).2.Within later

structure Held (buf : Bytes) : Prop where
  shape : buf = [] ∨ ∃ q, hdlcFlag ∉ q ∧ buf = hdlcFlag :: q
  bounded : buf.length ≤ hdlcMaxBuffered

def packetsOf (stream : Bytes) : List Bytes :=
  ((gaps hdlcFlag stream).filter fun gap => headerMinSize ≤ gap.length).map hdlcUnescape

variable {r : HDLCFrameReader} {pieces : List Bytes}

theorem extract_eq_parse (buf : Bytes) (n : Nat) (h : buf.length < n) :
    extract n buf = some (parse hdlcFlag readFrame buf) := by
  induction buf using shape_induction (d := hdlcFlag) generalizing n with
    obtain ⟨n, rfl⟩ := Nat.exists_eq_add_one_of_ne_zero (Nat.ne_zero_of_lt h)
  | none buf hbuf => rw [extract, dropWhile_of_not_mem hbuf, parse_of_not_mem hbuf]
  | opened lead q hlead hq =>
    rw [extract, dropWhile_lead_cons hlead, parse_opened hlead hq]
    simp only [dropWhile_of_not_mem hq]
  | closed lead q t hlead hq ih =>
    simp only [length_append, length_cons] at h
    have hlater : (hdlcFlag :: t).length < n := by
      rw [length_cons]
      omega
    rw [extract, dropWhile_lead_cons hlead, parse_closed hlead hq]
    simp only [dropWhile_lead_cons hq, takeWhile_lead_cons hq, ih n hlater, Option.map_some]

theorem length_lastOpen_le (buf : Bytes) : (lastOpen hdlcFlag buf).length ≤ buf.length := by
  induction buf using shape_induction (d := hdlcFlag) with
  | none buf hbuf =>
    rw [lastOpen_of_not_mem hbuf]
    exact Nat.zero_le _
  | opened lead q hlead hq =>
    rw [lastOpen_append lead mem_cons_self, lastOpen_cons hq, length_append]
    exact Nat.le_add_left ..
  | closed lead q t hlead hq ih =>
    rw [lastOpen_append lead mem_cons_self, ← cons_append, lastOpen_append _ mem_cons_self]
    simp only [length_append, length_cons] at ih ⊢
    omega

theorem length_trim_le (buf : Bytes) : (trim buf).length ≤ hdlcMaxBuffered := by
  unfold trim
  split
  · split
    · exact Nat.zero_le _
    · next hopen => exact Nat.not_lt.1 hopen
  · next hshort => exact Nat.not_lt.1 hshort

theorem held_feed (r : HDLCFrameReader) (data : Bytes) : Held (r.feed data).2.buf := by
  have hbuf : (r.feed data).2.buf = lastOpen hdlcFlag (trim (r.buf ++ data)) := parse_rest _
  rw [hbuf]
  exact ⟨lastOpen_eq_nil_or_cons _ _, (length_lastOpen_le _).trans (length_trim_le _)⟩

theorem held_fed (h : Held r.buf) (pieces : List Bytes) : Held (r.fed pieces).buf := by
  induction pieces generalizing r with
  | nil => exact h
  | cons data later ih => exact ih (held_feed r data)

theorem filterMap_readFrame (segments : List Bytes) : segments.filterMap readFrame =
      (segments.filter fun gap => headerMinSize ≤ gap.length).map hdlcUnescape := by
  induction segments with
  | nil => rfl
  | cons gap segments ih =>
    by_cases hlong : headerMinSize ≤ gap.length
    · have hread : readFrame gap = some (hdlcUnescape gap) := if_pos hlong
      rw [filterMap_cons_some hread, ih]
      simp only [filter_cons, hlong, decide_true, if_true, map_cons]
    · have hread : readFrame gap = none := if_neg hlong
      rw [filterMap_cons_none hread, ih]
      simp only [filter_cons, hlong, decide_false, Bool.false_eq_true, if_false]

theorem fits_of_within {read : Bytes} (hbuf : r.buf = lastOpen hdlcFlag read)
    (h : r.Within pieces) : Fits read pieces := by
  induction pieces generalizing r read with
  | nil => trivial
  | cons data later ih => exact ⟨hbuf ▸ h.1, ih (feed_buf_of_fits hbuf h.1) h.2⟩

/-- Whatever arrives, in whatever pieces: the reader holds nothing or one flag and what follows
it, within the bound; the loop on the next piece ends; and while the bound is not exceeded, the
packets returned are those of the stream. -/
theorem reader_follows_stream (pieces : List Bytes) : Held (newHDLCFrameReader.fed pieces).buf ∧
    (∀ data n, (trim ((newHDLCFrameReader.fed pieces).buf ++ data)).length < n →
      extract n (trim ((newHDLCFrameReader.fed pieces).buf ++ data)) =
        some (((newHDLCFrameReader.fed pieces).feed data).1,
          ((newHDLCFrameReader.fed pieces).feed data).2.buf)) ∧
    (newHDLCFrameReader.Within pieces →
      newHDLCFrameReader.feedAll pieces = packetsOf pieces.flatten) := by
  have hnew : Held newHDLCFrameReader.buf := ⟨.inl rfl, Nat.zero_le _⟩
  refine ⟨held_fed hnew pieces, fun data n hn => extract_eq_parse _ n hn, fun hwithin => ?_⟩
  have hbuf : newHDLCFrameReader.buf = lastOpen hdlcFlag [] := rfl
  rw [feedAll_of_fits hbuf (fits_of_within hbuf hwithin)]
  exact (parse_eq_gaps _).trans (filterMap_readFrame _)

/-- Garbage, a frame of nineteen bytes with an escape, a short gap and an open frame. -/
def noisyPieces : List Bytes :=
  [[1, 2, 0x7E, 0x7D], 0x5E :: replicate 18 3, [0x7E, 4, 0x7E, 5]]

/-- The bytes before the first flag and the short gap are passed over. -/
theorem reader_follows_stream_noisy : newHDLCFrameReader.Within noisyPieces ∧
      newHDLCFrameReader.feedAll noisyPieces = [0x7E :: replicate 18 3] ∧
      Held (newHDLCFrameReader.fed noisyPieces).buf := by
  obtain ⟨hheld, -, hpackets⟩ := reader_follows_stream noisyPieces
  have hwithin : newHDLCFrameReader.Within noisyPieces := by
    refine ⟨?_, ?_, ?_, trivial⟩ <;> decide +kernel
  exact ⟨hwithin, (hpackets hwithin).trans (by decide +kernel), hheld⟩

end MeshsatHub.Rnswire
