import MeshsatHub.Rns.Outgoing

/-!
# The sender of a transfer

What `sendResource` sets up does not change during the transfer (`Prepared`). A request moves only
the counters of the sender and the lower end of the window in which it looks for parts.
-/

namespace MeshsatHub.Rns
open Rnswire Slices List

/-- What a transfer rests on from its start to its end. -/
structure Prepared (c : Crypto) (r : OutgoingResource) : Prop where
  hashes : r.mapHashes = r.parts.map (c.mapHash r.randomHash)
  nodup : r.mapHashes.Nodup
  nonempty : ∀ part ∈ r.parts, part ≠ []
  whole : r.parts.flatten = r.data
  hash_length : r.hash.length = fullHashLen

/-- A resource without the counters of its sender. -/
def OutgoingResource.bare (r : OutgoingResource) : OutgoingResource :=
  { r with
    partSent := []
    sentParts := 0
    advRetries := 0
    state := .advertised
    recvMinHeight := 0 }

variable {c : Crypto} {l : Link} {payload enc : Bytes} {draws : List Bytes}
  {requestID : Option Bytes} {isResponse : Bool} {r : OutgoingResource}

/-- The first draw under which the map hashes of the slices differ ends the loop. -/
theorem drawLoop_eq {sdu : Int} (hsdu : 0 < sdu) (draws : List Bytes) : c.drawLoop enc sdu draws =
      (draws.find? fun random => ((slices sdu.toNat enc).map (c.mapHash random)).Nodup).map
        fun random => (random,
          .parts (slices sdu.toNat enc) ((slices sdu.toNat enc).map (c.mapHash random))) := by
  induction draws with
  | nil => rfl
  | cons draw draws ih =>
    rw [Crypto.drawLoop, c.partition_eq draw enc hsdu]
    by_cases hnodup : ((slices sdu.toNat enc).map (c.mapHash draw)).Nodup
    · rw [if_pos hnodup, find?_cons_of_pos (by simpa using hnodup)]
      rfl
    · rw [if_neg hnodup, find?_cons_of_neg (by simpa using hnodup)]
      exact ih

theorem sendResource_prepared (hsdu : 0 < l.sdu)
    (h : c.sendResource l payload enc draws requestID isResponse = .ok r) :
    Prepared c r ∧ r.data = enc ∧ r.state = .advertised ∧ r.recvMinHeight = 0 ∧
      r.hash = c.sum256 (payload ++ r.randomHash) ∧
      r.expectedProof = c.sum256 (payload ++ r.hash) := by
  rw [Crypto.sendResource] at h
  split at h
  · cases h
  · split at h
    · rename_i random parts mapHashes hdraw
      rw [drawLoop_eq hsdu] at hdraw
      obtain ⟨draw, hfind, heq⟩ := Option.map_eq_some_iff.1 hdraw
      have hnodup := find?_some hfind
      rw [decide_eq_true_eq] at hnodup
      cases heq
      cases h
      have hsize : 0 < l.sdu.toNat := by omega
      exact ⟨⟨rfl, hnodup, fun _ => ne_nil_of_mem_slices hsize, flatten_slices hsize enc,
        c.length_sum256 _⟩, rfl, rfl, rfl, rfl, rfl⟩
    · cases h
    · cases h

variable {lastMap hash : Bytes} {req : List Bytes} {i last : Nat}

theorem parseResourceRequest_notExh (hhash : hash.length = fullHashLen)
    (hreq : ∀ mh ∈ req, mh.length = resourceMapHashLen) :
    parseResourceRequest (resourceHashmapNotExh :: (hash ++ req.flatten)) =
      some { exhausted := false, lastMap := replicate resourceMapHashLen 0, hash,
             wanted := req } := by
  rw [parseResourceRequest, if_neg, if_neg (by decide), take_left' hhash,
    drop_left' hhash, pieces_flatten (by decide) hreq]
  rw [length_append]
  omega

theorem parseResourceRequest_exh (hlast : lastMap.length = resourceMapHashLen)
    (hhash : hash.length = fullHashLen) (hreq : ∀ mh ∈ req, mh.length = resourceMapHashLen) :
    parseResourceRequest (resourceHashmapExh :: (lastMap ++ hash ++ req.flatten)) =
      some { exhausted := true, lastMap, hash, wanted := req } := by
  have hlength : (lastMap ++ hash ++ req.flatten).length =
      resourceMapHashLen + fullHashLen + req.flatten.length := by
    rw [length_append, length_append, hlast, hhash]
  rw [parseResourceRequest, if_neg (by omega), if_pos rfl, if_neg (by omega), append_assoc,
    take_left' hlast, drop_left' hlast]
  dsimp only
  rw [take_left' hhash, drop_left' hhash, pieces_flatten (by decide) hreq]

section
variable (hp : Prepared c r)
include hp

theorem getD_mapHashes_inj {j : Nat} (hi : i < r.parts.length)
    (hj : j < r.parts.length) (h : r.mapHashes.getD i [] = r.mapHashes.getD j []) : i = j := by
  have hlength : r.mapHashes.length = r.parts.length := by rw [hp.hashes, length_map]
  rw [getD_eq_getElem _ _ (by omega), getD_eq_getElem _ _ (by omega)] at h
  exact (hp.nodup.getElem_inj_iff).1 h

theorem getD_mapHashes (hi : i < r.parts.length) :
    r.mapHashes.getD i [] = c.mapHash r.randomHash (r.parts.getD i []) := by
  have hlength : r.mapHashes.length = r.parts.length := by rw [hp.hashes, length_map]
  rw [getD_eq_getElem _ _ (by omega), getD_eq_getElem _ _ hi]
  simp only [hp.hashes, getElem_map]

theorem length_of_mem_mapHashes {mh : Bytes} (h : mh ∈ r.mapHashes) :
    mh.length = resourceMapHashLen := by
  rw [hp.hashes] at h
  obtain ⟨part, -, rfl⟩ := mem_map.1 h
  exact c.length_mapHash _ _

theorem length_getD_mapHashes (hi : i < r.parts.length) :
    (r.mapHashes.getD i []).length = resourceMapHashLen := by
  rw [getD_mapHashes hp hi]
  exact c.length_mapHash _ _

end

theorem foldl_markSent (found : List Nat) (r : OutgoingResource) :
    (found.foldl OutgoingResource.markSent r).bare = r.bare ∧
      (found.foldl OutgoingResource.markSent r).recvMinHeight = r.recvMinHeight ∧
      (found.foldl OutgoingResource.markSent r).state = r.state := by
  induction found generalizing r with
  | nil => exact ⟨rfl, rfl, rfl⟩
  | cons i found ih =>
    have hstep : (r.markSent i).bare = r.bare ∧ (r.markSent i).recvMinHeight = r.recvMinHeight ∧
        (r.markSent i).state = r.state := by
      unfold OutgoingResource.markSent
      split <;> exact ⟨rfl, rfl, rfl⟩
    obtain ⟨hbare, hheight, hstate⟩ := ih (r.markSent i)
    rw [foldl_cons]
    exact ⟨hbare.trans hstep.1, hheight.trans hstep.2.1, hstate.trans hstep.2.2⟩

theorem settle_frame {r₀ r : OutgoingResource} (hbare : r.bare = r₀.bare)
    (hstate : r.state = .transferring) :
    r.settle.bare = r₀.bare ∧ r.settle.recvMinHeight = r.recvMinHeight ∧
      r.settle.state ≠ .advertised := by
  unfold OutgoingResource.settle
  split
  · exact ⟨hbare, rfl, nofun⟩
  · exact ⟨hbare, rfl, by rw [hstate]; exact nofun⟩

theorem afterLastMap_range' {mapHashes : List Bytes} {lastMap : Bytes}
    (hlast : mapHashes.getD last [] = lastMap) (count start : Nat) (hstart : start ≤ last)
    (hcount : last < start + count)
    (hother : ∀ i, start ≤ i → i < last → mapHashes.getD i [] ≠ lastMap) :
    afterLastMap mapHashes lastMap (range' start count) start = last + 1 := by
  induction count generalizing start with
  | zero => omega
  | succ count ih =>
    rw [range'_succ, afterLastMap]
    by_cases heq : start = last
    · subst heq
      rw [if_pos hlast]
    · rw [if_neg (hother start (Nat.le_refl _) (by omega))]
      exact ih (start + 1) (by omega) (by omega) fun i hi => hother i (by omega)

theorem afterLastMap_searchWindow (hp : Prepared c r)
    (hlow : r.recvMinHeight ≤ last) (hhigh : last < r.recvMinHeight + resourceCollisionGuard)
    (hin : last < r.parts.length) :
    afterLastMap r.mapHashes (r.mapHashes.getD last []) r.searchWindow r.recvMinHeight =
      last + 1 := by
  have hend : last < r.searchEnd := by
    rw [OutgoingResource.searchEnd]
    omega
  refine afterLastMap_range' rfl _ _ hlow (by omega) fun i hi hlt heq => ?_
  exact absurd (getD_mapHashes_inj hp (by omega) hin heq) (by omega)

theorem mem_parts_of_found {is : List Nat} (h : ∀ i ∈ is, i < r.parts.length) {part : Bytes}
    (hpart : part ∈ is.map fun i => r.parts.getD i []) : part ∈ r.parts := by
  obtain ⟨i, hi, rfl⟩ := mem_map.1 hpart
  rw [getD_eq_getElem _ _ (h i hi)]
  exact getElem_mem _

theorem lt_of_mem_searchWindow (h : i ∈ r.searchWindow) : i < r.parts.length := by
  rw [OutgoingResource.searchWindow, mem_range'_1, OutgoingResource.searchEnd] at h
  omega

structure Answered (r r' : OutgoingResource) (parts : List Bytes) : Prop where
  bare : r'.bare = r.bare
  state : r'.state ≠ .advertised
  parts : ∀ part ∈ parts, part ∈ r.parts

theorem serve_notExhausted (r : OutgoingResource) {req : ResourceRequest}
    (h : req.exhausted = false) :
    ∃ r' parts, r.serve req = .served r' parts none ∧ Answered r r' parts ∧
      r'.recvMinHeight = r.recvMinHeight := by
  rw [OutgoingResource.serve, h]
  obtain ⟨hbare, hheight, hstate⟩ := foldl_markSent
    (({ r with state := .transferring } : OutgoingResource).searchWindow.filter fun i =>
      req.wanted.contains (r.mapHashes.getD i [])) { r with state := .transferring }
  obtain ⟨hbare', hheight', hstate'⟩ := settle_frame hbare hstate
  refine ⟨_, _, rfl, ⟨hbare', hstate', fun part hpart => ?_⟩, hheight'.trans hheight⟩
  exact mem_parts_of_found (fun i hi => lt_of_mem_searchWindow (mem_of_mem_filter hi)) hpart

theorem serve_exhausted (hp : Prepared c r) {req : ResourceRequest} (h : req.exhausted)
    {segment : Nat} (hpos : 0 < segment)
    (hlast : req.lastMap = r.mapHashes.getD (segment * resourceHashmapMaxLen - 1) [])
    (hlow : r.recvMinHeight ≤ segment * resourceHashmapMaxLen - 1)
    (hhigh : segment * resourceHashmapMaxLen - 1 < r.recvMinHeight + resourceCollisionGuard)
    (hin : segment * resourceHashmapMaxLen < r.parts.length) :
    ∃ r' parts, r.serve req = .served r' parts
        (some (.array [.ofNat segment, .bin (r.segmentHashes segment).flatten])) ∧
      Answered r r' parts ∧
      r'.recvMinHeight = segment * resourceHashmapMaxLen - 1 - resourceWindowMaxFast := by
  have hsegment : 0 < segment * resourceHashmapMaxLen := Nat.mul_pos hpos (by decide)
  have hidx : afterLastMap r.mapHashes req.lastMap r.searchWindow r.recvMinHeight =
      segment * resourceHashmapMaxLen := by
    rw [hlast, afterLastMap_searchWindow hp hlow hhigh (by omega)]
    omega
  have hlength : r.mapHashes.length = r.parts.length := by rw [hp.hashes, length_map]
  have hnonempty : (r.segmentHashes segment).flatten.length ≠ 0 := by
    have hmem : r.mapHashes.getD (segment * resourceHashmapMaxLen) [] ∈
        r.segmentHashes segment := by
      rw [OutgoingResource.segmentHashes, getD_eq_getElem _ _ (by omega), mem_iff_getElem]
      refine ⟨0, ?_, ?_⟩
      · rw [length_drop, length_take, Nat.add_mul]
        have hone : 0 < 1 * resourceHashmapMaxLen := by decide
        omega
      · simp only [getElem_drop, getElem_take, Nat.add_zero]
    intro hzero
    have hnil := flatten_eq_nil_iff.1 (length_eq_zero_iff.1 hzero) _ hmem
    have hfour := length_getD_mapHashes hp hin
    rw [hnil] at hfour
    cases hfour
  rw [OutgoingResource.serve, h]
  rw [if_pos rfl]
  have hidx' : afterLastMap r.mapHashes req.lastMap
      ({ r with state := .transferring } : OutgoingResource).searchWindow r.recvMinHeight =
      segment * resourceHashmapMaxLen := hidx
  rw [hidx', if_neg (by rw [Nat.mul_mod_left]; decide), Nat.mul_div_cancel _ (by decide)]
  have hnonempty' : ¬(({ r with state := .transferring } : OutgoingResource).segmentHashes
      segment).flatten.length = 0 := hnonempty
  rw [if_neg hnonempty']
  obtain ⟨hbare, -, hstate⟩ := foldl_markSent
    (({ r with state := .transferring } : OutgoingResource).searchWindow.filter fun i =>
      req.wanted.contains (r.mapHashes.getD i [])) { r with state := .transferring }
  obtain ⟨hbare', hheight', hstate'⟩ := @settle_frame r
    { (({ r with state := .transferring } : OutgoingResource).searchWindow.filter fun i =>
        req.wanted.contains (r.mapHashes.getD i [])).foldl OutgoingResource.markSent
          { r with state := .transferring } with
      recvMinHeight := segment * resourceHashmapMaxLen - 1 - resourceWindowMaxFast } hbare hstate
  refine ⟨_, _, rfl, ⟨hbare', hstate', fun part hpart => ?_⟩, hheight'⟩
  exact mem_parts_of_found (fun i hi => lt_of_mem_searchWindow (mem_of_mem_filter hi)) hpart

end MeshsatHub.Rns
