import MeshsatHub.Rns.IndexSafety
import MeshsatHub.Rns.Serving

/-!
# The receiver of a transfer

A receiver of an honest sender that has run out of map hashes is near their end
(`height_le_of_exhausted`).
-/

namespace MeshsatHub.Rns
open Rnswire Slices List Function

/-- A first part of the sender's map hashes is known. -/
structure Knows (r₀ : OutgoingResource) (r : IncomingResource) : Prop where
  height_le : r.hashHeight ≤ r.totalParts
  set : ∀ i, i < r.totalParts → r.hashmapSet i = decide (i < r.hashHeight)
  hashes : ∀ i, i < r.hashHeight → r.hashmap i = r₀.mapHashes.getD i []

/-- The receiver has stored parts of the sender, none of them far ahead. -/
structure Holds (r₀ : OutgoingResource) (r : IncomingResource) : Prop where
  total : r.totalParts = r₀.parts.length
  hash : r.hash = r₀.hash
  random : r.randomHash = r₀.randomHash
  compressed : r.compressed = false
  stored : ∀ i, i < r.totalParts → r.parts i = [] ∨ r.parts i = r₀.parts.getD i []
  consecutive_ge : -1 ≤ r.consecutive
  consecutive_lt : r.consecutive < r.totalParts
  ahead : ∀ i : Nat, i < r.totalParts → r.parts i ≠ [] →
    (i : Int) ≤ r.consecutive + resourceWindowMaxSlow
  window : r.window ≤ resourceWindowMaxSlow
  windowMax : r.windowMax = resourceWindowMaxSlow
  received : r.received = (range r.totalParts).countP fun i => decide (r.parts i ≠ [])

variable {r : IncomingResource} {r₀ : OutgoingResource}

theorem Knows.waits (hr : Knows r₀ r) (outstanding : Int) (waitingHMU : Bool) :
    Knows r₀ { r with outstanding, waitingHMU } :=
  ⟨hr.height_le, hr.set, hr.hashes⟩

theorem Holds.waits (hh : Holds r₀ r) (outstanding : Int) (waitingHMU : Bool) :
    Holds r₀ { r with outstanding, waitingHMU } :=
  ⟨hh.total, hh.hash, hh.random, hh.compressed, hh.stored, hh.consecutive_ge, hh.consecutive_lt,
    hh.ahead, hh.window, hh.windowMax, hh.received⟩

theorem Holds.withWindow (hh : Holds r₀ r) {window : Nat} (hwindow : window ≤ resourceWindowMaxSlow)
    (windowMin retries : Nat) (waitingHMU : Bool) :
    Holds r₀ { r with window, windowMin, retries, waitingHMU } :=
  ⟨hh.total, hh.hash, hh.random, hh.compressed, hh.stored, hh.consecutive_ge, hh.consecutive_lt,
    hh.ahead, hwindow, hh.windowMax, hh.received⟩

variable {r₀ : OutgoingResource} {c : Crypto}

theorem knows_openResource (v : Value) : Knows r₀ (openResource v) where
  height_le := Nat.zero_le _
  set := fun _ _ => rfl
  hashes := nofun

theorem flags_cases (r : OutgoingResource) : r.flags = 0x01 ∨ r.flags = 0x11 ∨ r.flags = 0x09 := by
  unfold OutgoingResource.flags
  split
  · exact .inl rfl
  · split
    · exact .inr (.inl rfl)
    · exact .inr (.inr rfl)

theorem holds_openResource (hsize : r₀.parts.length < 2 ^ 63)
    (hpos : 0 < (openResource (r₀.advertisement 0)).totalParts) :
    Holds r₀ (openResource (r₀.advertisement 0)) where
  total := by
    change ((r₀.advertisement 0).get "n").asInt.toNat = _
    have hn : (r₀.advertisement 0).get "n" = .ofNat r₀.parts.length := rfl
    rw [hn, Value.asInt_ofNat hsize, Int.toNat_natCast]
  hash := rfl
  random := rfl
  compressed := by
    change flagSet ((r₀.advertisement 0).get "f").asInt 1 = false
    have hf : (r₀.advertisement 0).get "f" = .ofNat r₀.flags := rfl
    rw [hf]
    obtain h | h | h := flags_cases r₀ <;> rw [h] <;> decide +kernel
  stored := fun _ _ => .inl rfl
  consecutive_ge := Int.le_refl _
  consecutive_lt := by
    change (-1 : Int) < _
    omega
  ahead := fun _ _ h => absurd rfl h
  window := by
    change resourceWindow ≤ resourceWindowMaxSlow
    decide
  windowMax := rfl
  received := (congrFun countP_false _).symm

variable {r : IncomingResource} {i segment : Nat} {asked : List Nat}

theorem holds_setHash (hr : Holds r₀ r) (i : Nat) (mh : Bytes) : Holds r₀ (r.setHash i mh) :=
  ⟨hr.total, hr.hash, hr.random, hr.compressed, hr.stored, hr.consecutive_ge, hr.consecutive_lt,
    hr.ahead, hr.window, hr.windowMax, hr.received⟩

theorem knows_setHash (hr : Knows r₀ r) (hi : i < r.totalParts) (hle : i ≤ r.hashHeight) :
    Knows r₀ (r.setHash i (r₀.mapHashes.getD i [])) ∧
      (r.setHash i (r₀.mapHashes.getD i [])).hashHeight = max r.hashHeight (i + 1) := by
  have hheight : (r.setHash i (r₀.mapHashes.getD i [])).hashHeight = max r.hashHeight (i + 1) := by
    change (if r.hashmapSet i then r.hashHeight else r.hashHeight + 1) = _
    rw [hr.set i hi]
    by_cases hlt : i < r.hashHeight <;> simp only [hlt, decide_true, decide_false] <;> simp <;>
      omega
  refine ⟨⟨?_, fun j hj => ?_, fun j hj => ?_⟩, hheight⟩
  · rw [hheight]
    have := hr.height_le
    change max r.hashHeight (i + 1) ≤ r.totalParts
    omega
  · change update r.hashmapSet i true j = _
    by_cases heq : j = i
    · subst heq
      rw [update_self]
      exact (decide_eq_true (by omega)).symm
    · rw [update_of_ne heq, hr.set j hj]
      congr 1
      exact propext ⟨fun _ => by omega, fun _ => by omega⟩
  · change update r.hashmap i _ j = _
    by_cases heq : j = i
    · subst heq
      rw [update_self]
    · rw [update_of_ne heq]
      exact hr.hashes j (by omega)

def HashesFrom (r₀ : OutgoingResource) : Nat → List Bytes → Prop
  | _, [] => True
  | i, mh :: rest => mh = r₀.mapHashes.getD i [] ∧ i < r₀.parts.length ∧ HashesFrom r₀ (i + 1) rest

theorem knows_setHashes (hr : Knows r₀ r) (hh : Holds r₀ r) {hs : List Bytes}
    (hs₀ : HashesFrom r₀ i hs) (hle : i ≤ r.hashHeight) :
    Knows r₀ (r.setHashes i hs) ∧ Holds r₀ (r.setHashes i hs) ∧
      (r.setHashes i hs).hashHeight = max r.hashHeight (i + hs.length) ∧
      (r.setHashes i hs).consecutive = r.consecutive ∧
      (r.setHashes i hs).parts = r.parts := by
  induction hs generalizing i r with
  | nil =>
    refine ⟨hr, hh, ?_, rfl, rfl⟩
    rw [IncomingResource.setHashes, length_nil]
    omega
  | cons mh rest ih =>
    obtain ⟨rfl, hi, hrest⟩ := hs₀
    have hi' : i < r.totalParts := by rw [hh.total]; exact hi
    obtain ⟨hknows, hheight⟩ := knows_setHash hr hi' hle
    obtain ⟨hknows', hholds', hheight', hframe⟩ := ih hknows (holds_setHash hh i _) hrest (by omega)
    rw [IncomingResource.setHashes, if_pos hi']
    refine ⟨hknows', hholds', ?_, hframe⟩
    rw [hheight', hheight, length_cons]
    omega

theorem hashesFrom_drop {n : Nat} (h : i + n ≤ r₀.parts.length)
    (hlength : r₀.mapHashes.length = r₀.parts.length) :
    HashesFrom r₀ i ((r₀.mapHashes.drop i).take n) := by
  induction n generalizing i with
  | zero => trivial
  | succ n ih =>
    have hi : i < r₀.mapHashes.length := by omega
    rw [drop_eq_getElem_cons hi, take_succ_cons]
    exact ⟨(getD_eq_getElem _ _ hi).symm, by omega, ih (by omega)⟩

theorem hashesFrom_segment (hlength : r₀.mapHashes.length = r₀.parts.length)
    (hin : segment * resourceHashmapMaxLen ≤ r₀.parts.length) :
    HashesFrom r₀ (segment * resourceHashmapMaxLen) (r₀.segmentHashes segment) ∧
      segment * resourceHashmapMaxLen + (r₀.segmentHashes segment).length =
        min ((segment + 1) * resourceHashmapMaxLen) r₀.parts.length := by
  have hle : segment * resourceHashmapMaxLen ≤
      min ((segment + 1) * resourceHashmapMaxLen) r₀.parts.length := by
    rw [Nat.add_mul]
    omega
  constructor
  · rw [OutgoingResource.segmentHashes, drop_take]
    exact hashesFrom_drop (by omega) hlength
  · rw [OutgoingResource.segmentHashes, length_drop, length_take]
    omega

theorem knows_hashmapUpdate (hp : Prepared c r₀) (hr : Knows r₀ r) (hh : Holds r₀ r)
    (hin : segment * resourceHashmapMaxLen ≤ r₀.parts.length)
    (hle : segment * resourceHashmapMaxLen ≤ r.hashHeight) :
    ∃ r', r.hashmapUpdate segment (r₀.segmentHashes segment).flatten = .ok r' ∧
      Knows r₀ r' ∧ Holds r₀ r' ∧
      r'.hashHeight =
        max r.hashHeight (min ((segment + 1) * resourceHashmapMaxLen) r₀.parts.length) ∧
      r'.consecutive = r.consecutive ∧ r'.parts = r.parts := by
  have hlength : r₀.mapHashes.length = r₀.parts.length := by rw [hp.hashes, length_map]
  have hfour : ∀ mh ∈ r₀.segmentHashes segment, mh.length = resourceMapHashLen := fun mh hmh =>
    length_of_mem_mapHashes hp (mem_of_mem_take (mem_of_mem_drop hmh))
  have hrep := r.representable
  have hle' := hr.height_le
  have hbase : goInt ((segment : Int) * resourceHashmapMaxLen) =
      (segment * resourceHashmapMaxLen : Nat) := by
    rw [Int.natCast_mul, goInt_eq] <;> rw [← Int.natCast_mul] <;> omega
  obtain ⟨hfrom, hcount⟩ := hashesFrom_segment hlength hin
  obtain ⟨hknows, hholds, hheight, hconsecutive, hparts⟩ := knows_setHashes hr hh hfrom hle
  rw [IncomingResource.hashmapUpdate, pieces_flatten (by decide) hfour,
    hashmapLoop_eq hbase 0 _ r (by omega)]
  refine ⟨_, rfl, hknows.waits _ false, hholds.waits _ false, ?_, hconsecutive, hparts⟩
  rw [← hcount]
  exact hheight

def IsRequest (r₀ : OutgoingResource) (low high : Int) (segment : Option Nat) (plain : Bytes) :
    Prop :=
  ∃ asked : List Nat, (∀ j ∈ asked, low ≤ j ∧ (j : Int) < high ∧ j < r₀.parts.length) ∧
    plain =
      match segment with
      | none => resourceHashmapNotExh :: (r₀.hash ++ (asked.map (r₀.mapHashes.getD · [])).flatten)
      | some s => resourceHashmapExh ::
          (r₀.mapHashes.getD (s * resourceHashmapMaxLen - 1) [] ++ r₀.hash ++
            (asked.map (r₀.mapHashes.getD · [])).flatten)

theorem map_hashmap_eq (hr : Knows r₀ r) (h : ∀ j ∈ asked, j < r.hashHeight) :
    asked.map r.hashmap = asked.map (r₀.mapHashes.getD · []) :=
  map_congr_left fun j hj => hr.hashes j (h j hj)

theorem height_le_of_exhausted (hr : Knows r₀ r) (hh : Holds r₀ r) {start : Nat}
    (hstart : r.consecutive + 1 = start) (ha : Asks r start [] true asked) :
    r.hashHeight < r.totalParts ∧
      (r.hashHeight : Int) ≤ r.consecutive + 2 * resourceWindowMaxSlow + 1 := by
  obtain ⟨hshort, m, hm, hmTotal, hmSet, hbelow⟩ := ha.exhausted rfl
  have hheight : r.hashHeight ≤ m := by
    rw [hr.set m hmTotal, decide_eq_false_iff_not] at hmSet
    omega
  refine ⟨by omega, ?_⟩
  by_contra hfar
  -- the indexes that are too far ahead to be stored are all asked for
  have hsub : range' (start + resourceWindowMaxSlow)
      (r.hashHeight - (start + resourceWindowMaxSlow)) ⊆ asked := by
    intro j hj
    rw [mem_range'_1] at hj
    obtain hstored | hasked := hbelow j (by omega) (by omega)
    · have hahead := hh.ahead j (by omega) hstored
      omega
    · exact hasked
  have hlength := (Nodup.subperm (nodup_range' ..) hsub).length_le
  rw [length_range'] at hlength
  rw [nil_append, length_map] at hshort
  have hwindow := hh.window
  omega

theorem requestNext_spec (hr : Knows r₀ r) (hh : Holds r₀ r) (hpos : 0 < r.hashHeight) :
    ∃ r' out, r.requestNext = .ok (r', out) ∧ Knows r₀ r' ∧ Holds r₀ r' ∧
      r'.hashHeight = r.hashHeight ∧ r'.consecutive = r.consecutive ∧ r'.parts = r.parts ∧
      ∀ plain, out = some plain →
        IsRequest r₀ (r.consecutive + 1) r.hashHeight none plain ∨
        (r.hashHeight < r.totalParts ∧
          (r.hashHeight : Int) ≤ r.consecutive + 2 * resourceWindowMaxSlow + 1 ∧
          ∀ segment, r.hashHeight = segment * resourceHashmapMaxLen →
            IsRequest r₀ (r.consecutive + 1) r.hashHeight (some segment) plain) := by
  have hge := hh.consecutive_ge
  rw [IncomingResource.requestNext]
  split
  · exact ⟨r, none, rfl, hr, hh, rfl, rfl, rfl, by intros; contradiction⟩
  · obtain ⟨start, hstart⟩ := Int.eq_ofNat_of_zero_le (show 0 ≤ r.consecutive + 1 by omega)
    obtain ⟨exhausted, asked, heq, hasks⟩ := requestLoop_eq r (r.totalParts + 1) start []
    have hknown : ∀ j ∈ asked, j < r.hashHeight := by
      intro j hj
      obtain ⟨-, hjTotal, hjSet⟩ := hasks.missing j hj
      rw [hr.set j hjTotal, decide_eq_true_eq] at hjSet
      exact hjSet
    have hasked : ∀ j ∈ asked, r.consecutive + 1 ≤ (j : Int) ∧ (j : Int) < r.hashHeight ∧
        j < r₀.parts.length := by
      intro j hj
      obtain ⟨hlow, hjTotal, -⟩ := hasks.missing j hj
      have hj' := hknown j hj
      rw [← hh.total]
      omega
    rw [hstart, heq]
    dsimp only
    rw [nil_append, map_hashmap_eq hr hknown]
    cases exhausted with
    | false =>
      refine ⟨_, _, rfl, hr.waits _ r.waitingHMU, hh.waits _ r.waitingHMU, rfl, rfl, rfl, ?_⟩
      rintro plain ⟨⟩
      refine .inl ⟨asked, by rw [← hstart]; exact hasked, ?_⟩
      rw [hh.hash]
    | true =>
      obtain ⟨hlt, hnear⟩ := height_le_of_exhausted hr hh hstart hasks
      have hlast : r.index ((r.hashHeight : Int) - 1) = .ok (r.hashHeight - 1) := by
        have hcast : ((r.hashHeight : Int) - 1) = (r.hashHeight - 1 : Nat) := by omega
        rw [hcast]
        exact IncomingResource.index_natCast (by omega)
      rw [if_pos rfl, hlast]
      refine ⟨_, _, rfl, hr.waits _ true, hh.waits _ true, rfl, rfl, rfl, ?_⟩
      rintro plain ⟨⟩
      refine .inr ⟨hlt, hnear, fun segment hsegment => ⟨asked, ?_, ?_⟩⟩
      · rw [← hstart]
        exact hasked
      · rw [hr.hashes _ (by omega), hh.hash, hsegment]

section
variable (hp : Prepared c r₀)
include hp

theorem holds_setPart (hh : Holds r₀ r) (hi : i < r.totalParts)
    (hfree : r.parts i = []) (hahead : (i : Int) ≤ r.consecutive + resourceWindowMaxSlow)
    {consecutive : Int} (hge : r.consecutive ≤ consecutive) (hlt : consecutive < r.totalParts) :
    Holds r₀ { r.setPart i (r₀.parts.getD i []) with consecutive } := by
  have hne : r₀.parts.getD i [] ≠ [] := by
    have hi' : i < r₀.parts.length := hh.total ▸ hi
    rw [getD_eq_getElem _ _ hi']
    exact hp.nonempty _ (getElem_mem hi')
  refine ⟨hh.total, hh.hash, hh.random, hh.compressed, fun j hj => ?_,
    Int.le_trans hh.consecutive_ge hge, hlt, fun j hj hstored => ?_, hh.window, hh.windowMax, ?_⟩
  · change update r.parts i _ j = [] ∨ update r.parts i _ j = _
    by_cases heq : j = i
    · subst heq
      rw [update_self]
      exact .inr rfl
    · rw [update_of_ne heq]
      exact hh.stored j hj
  · change (j : Int) ≤ consecutive + resourceWindowMaxSlow
    change update r.parts i _ j ≠ [] at hstored
    by_cases heq : j = i
    · omega
    · rw [update_of_ne heq] at hstored
      have := hh.ahead j hj hstored
      omega
  · change r.received + 1 = (range r.totalParts).countP fun j =>
      decide (update r.parts i (r₀.parts.getD i []) j ≠ [])
    have hcount : (fun j => decide (update r.parts i (r₀.parts.getD i []) j ≠ [])) =
        update (fun j => decide (r.parts j ≠ [])) i true := by
      funext j
      by_cases heq : j = i
      · subst heq
        rw [update_self, update_self]
        exact decide_eq_true hne
      · rw [update_of_ne heq, update_of_ne heq]
    rw [hcount, countP_update hi, hh.received, hfree]
    rfl

omit hp in
/-- What a part of the sender leads to. -/
def Received.Tracks (r₀ : OutgoingResource) (r : IncomingResource) : Received → Prop
  | .unmatched => True
  | .waiting r' | .next r' => Knows r₀ r' ∧ Holds r₀ r' ∧ r'.hashHeight = r.hashHeight ∧
      r.consecutive ≤ r'.consecutive
  | .whole r' => Holds r₀ r' ∧ r'.received = r'.totalParts

theorem receive_spec (hr : Knows r₀ r) (hh : Holds r₀ r) {part : Bytes} (hpart : part ∈ r₀.parts) :
    ∃ received, r.receive c part = .ok received ∧ received.Tracks r₀ r := by
  have hge := hh.consecutive_ge
  rw [IncomingResource.receive]
  obtain ⟨start, hstart⟩ := Int.eq_ofNat_of_zero_le (show 0 ≤ r.consecutive + 1 by omega)
  obtain ⟨found, heq, hfound⟩ := findPart_eq r (c.mapHash r.randomHash part) r.window start
  rw [hstart, heq]
  cases found with
  | none => exact ⟨.unmatched, rfl, trivial⟩
  | some i =>
    obtain ⟨-, hwindow, hi, hset, hhash, hfree⟩ := hfound i rfl
    -- the map hash of the part is that of one index only
    obtain ⟨i', hi', hget⟩ := mem_iff_getElem.1 hpart
    have hknown : i < r.hashHeight := by
      rw [hr.set i hi, decide_eq_true_eq] at hset
      exact hset
    have hown : part = r₀.parts.getD i [] := by
      have hi₀ : i < r₀.parts.length := hh.total ▸ hi
      have hpart' : part = r₀.parts.getD i' [] := by
        rw [getD_eq_getElem _ _ hi', hget]
      rw [hr.hashes i hknown, hh.random, hpart', ← getD_mapHashes hp hi'] at hhash
      rw [hpart', getD_mapHashes_inj hp hi₀ hi' hhash]
    have hbound := hh.window
    obtain ⟨c', hadvance, hle, hlt, -⟩ :=
      advanceConsecutive_eq (r.setPart i part) r.totalParts r.consecutive hge hh.consecutive_lt
    have hholds : Holds r₀ { r.setPart i part with consecutive := c' } :=
      hown ▸ holds_setPart hp hh hi hfree (by omega) hle hlt
    have hknows : Knows r₀ { r.setPart i part with consecutive := c' } :=
      ⟨hr.height_le, hr.set, hr.hashes⟩
    dsimp only
    rw [hadvance]
    dsimp only
    split
    case isTrue hall => exact ⟨_, rfl, hholds, hall⟩
    case isFalse =>
      split
      · refine ⟨_, rfl, ?_⟩
        rw [Received.Tracks, IncomingResource.grow]
        split
        · rename_i hgrow
          refine ⟨⟨hr.height_le, hr.set, hr.hashes⟩, hholds.withWindow ?_ _ _ _, rfl, hle⟩
          have hmax := hholds.windowMax
          change r.window + 1 ≤ resourceWindowMaxSlow
          change r.window < r.windowMax at hgrow
          change r.windowMax = resourceWindowMaxSlow at hmax
          omega
        · exact ⟨hknows, hholds, rfl, hle⟩
      · exact ⟨_, rfl, hknows, hholds, rfl, hle⟩

theorem flatMap_parts (hh : Holds r₀ r) (hall : r.received = r.totalParts) :
    (range r.totalParts).flatMap r.parts = r₀.data := by
  have hpresent : ∀ i ∈ range r.totalParts, r.parts i ≠ [] := by
    have hcount : (range r.totalParts).countP (fun i => decide (r.parts i ≠ [])) =
        (range r.totalParts).length := by
      rw [← hh.received, hall, length_range]
    intro i hi
    exact of_decide_eq_true (countP_eq_length.1 hcount i hi)
  have hparts : (range r.totalParts).map r.parts = r₀.parts := by
    apply ext_getElem
    · rw [length_map, length_range, hh.total]
    · intro i hi hi'
      rw [getElem_map, getElem_range]
      have hlt : i < r.totalParts := hh.total ▸ hi'
      obtain hnil | hown := hh.stored i hlt
      · exact absurd hnil (hpresent i (mem_range.2 hlt))
      · rw [hown, getD_eq_getElem _ _ hi']
  rw [flatMap_def, hparts, hp.whole]

theorem assemble_eq (hh : Holds r₀ r) (hall : r.received = r.totalParts)
    {random payload : Bytes} (hrandom : random.length = resourceRandomHashLen)
    (hdecrypt : c.decrypt r₀.data = some (random ++ payload))
    (hhash : r₀.hash = c.sum256 (payload ++ r₀.randomHash)) : c.assemble r = some payload := by
  rw [Crypto.assemble, flatMap_parts hp hh hall, hdecrypt]
  dsimp only
  rw [if_neg (by rw [length_append]; omega), hh.compressed, drop_left' hrandom]
  simp only [Bool.false_eq_true, if_false]
  rw [hh.random, hh.hash, hhash, if_pos rfl]

end

end MeshsatHub.Rns
