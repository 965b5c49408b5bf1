import MeshsatHub.Foundations.Tables
import MeshsatHub.Rns.Incoming

/-!
# Index safety of a transfer

Two indexes of a receiver are not checked against what a peer says: the number of a segment of map
hashes, and the last map hash a receiver that has run out of them knows. `Sound` is what every other
step keeps.
-/

namespace MeshsatHub.Rns
open Rnswire Runs Slices Tables List Function Option

/-- The arrays of a resource are used up to its counters, and a map hash is known. -/
structure IncomingResource.Sound (r : IncomingResource) : Prop where
  consecutive_ge : -1 ≤ r.consecutive
  consecutive_lt : r.consecutive < r.totalParts
  height : r.hashHeight = (range r.totalParts).countP r.hashmapSet
  height_pos : 0 < r.hashHeight

/-- All resources that are received are sound. -/
def IncomingTable.Sound (t : IncomingTable) : Prop := ∀ hash r, t hash = some r → r.Sound

/-- No index outside an array is used. -/
def InRange {α : Type} (outcome : Except Fault α) : Prop := ∀ i n, outcome ≠ .error (.index i n)

theorem inRange_ok {α : Type} (a : α) : InRange (.ok a) := nofun

section
variable {r : IncomingResource}

theorem countP_update {p : Nat → Bool} {n i : Nat} (h : i < n) :
    (range n).countP (update p i true) = (range n).countP p + if p i then 0 else 1 := by
  induction n with
  | zero => omega
  | succ n ih =>
    rw [range_succ, countP_append, countP_append, countP_singleton, countP_singleton]
    by_cases hin : i = n
    · subst hin
      have hbelow : (range i).countP (update p i true) = (range i).countP p := by
        apply countP_congr
        intro j hj
        rw [update_of_ne (Nat.ne_of_lt (mem_range.1 hj))]
      rw [hbelow, update_self]
      cases p i <;> rfl
    · rw [ih (by omega), update_of_ne (Ne.symm hin)]
      omega

section
variable (hheight : r.hashHeight = (range r.totalParts).countP r.hashmapSet)
include hheight

theorem setHash_height {i : Nat} (hi : i < r.totalParts) (mh : Bytes) :
    (r.setHash i mh).hashHeight =
      (range (r.setHash i mh).totalParts).countP (r.setHash i mh).hashmapSet := by
  change (if r.hashmapSet i then r.hashHeight else r.hashHeight + 1) =
    (range r.totalParts).countP (update r.hashmapSet i true)
  rw [countP_update hi, ← hheight]
  cases r.hashmapSet i <;> rfl

theorem setHashes_height (i : Nat) (hs : List Bytes) :
    (r.setHashes i hs).hashHeight = (range (r.setHashes i hs).totalParts).countP
        (r.setHashes i hs).hashmapSet ∧
      r.hashHeight ≤ (r.setHashes i hs).hashHeight ∧
      (r.setHashes i hs).consecutive = r.consecutive ∧
      (r.setHashes i hs).totalParts = r.totalParts := by
  induction hs generalizing i r with
  | nil => exact ⟨hheight, Nat.le_refl _, rfl, rfl⟩
  | cons mh rest ih =>
    rw [IncomingResource.setHashes]
    split
    case isTrue hi =>
      have hle : r.hashHeight ≤ (r.setHash i mh).hashHeight := by
        change r.hashHeight ≤ if r.hashmapSet i then r.hashHeight else r.hashHeight + 1
        split <;> omega
      obtain ⟨hcount, hmono, hframe⟩ := ih (setHash_height hheight hi mh) (i + 1)
      exact ⟨hcount, Nat.le_trans hle hmono, hframe⟩
    case isFalse => exact ⟨hheight, Nat.le_refl _, rfl, rfl⟩

theorem setHashes_height_pos (hunset : r.hashmapSet 0 = false) (htotal : 0 < r.totalParts)
    (mh : Bytes) (rest : List Bytes) : 0 < (r.setHashes 0 (mh :: rest)).hashHeight := by
  rw [IncomingResource.setHashes, if_pos htotal]
  have hone : (r.setHash 0 mh).hashHeight = r.hashHeight + 1 := if_neg (by simp [hunset])
  have hmono := (setHashes_height (setHash_height hheight htotal mh) (0 + 1) rest).2.1
  exact Nat.lt_of_lt_of_le (by omega) hmono

end

theorem hashmapUpdate_sound (hr : r.Sound) {segment : Int} {hm : Bytes}
    (h : resourceMapHashLen ≤ hm.length → 0 ≤ goInt (segment * resourceHashmapMaxLen)) :
    ∃ r', r.hashmapUpdate segment hm = .ok r' ∧ r'.Sound := by
  rw [IncomingResource.hashmapUpdate]
  cases hpieces : pieces resourceMapHashLen hm with
  | nil => exact ⟨_, rfl, hr.consecutive_ge, hr.consecutive_lt, hr.height, hr.height_pos⟩
  | cons mh rest =>
    have hlong : resourceMapHashLen ≤ hm.length := by
      have hcount := length_pieces resourceMapHashLen hm
      rw [hpieces, length_cons] at hcount
      exact (Nat.div_pos_iff.1 (by omega)).2
    obtain ⟨base, hbase⟩ := Int.eq_ofNat_of_zero_le (h hlong)
    have hlow : base + 0 < 2 ^ 63 := by
      have hlt := @Int.bmod_lt (segment * resourceHashmapMaxLen) (2 ^ 64) (by decide)
      rw [goInt] at hbase
      omega
    rw [hashmapLoop_eq hbase 0 _ r hlow]
    obtain ⟨hcount, hmono, hconsecutive, htotal⟩ :=
      setHashes_height hr.height (base + 0) (mh :: rest)
    exact ⟨_, rfl, hconsecutive ▸ hr.consecutive_ge, hconsecutive ▸ htotal ▸ hr.consecutive_lt,
      hcount, Nat.lt_of_lt_of_le hr.height_pos hmono⟩

theorem hashmapUpdate_neg {segment : Int} {hm : Bytes} (hlong : resourceMapHashLen ≤ hm.length)
    (h : ¬0 ≤ goInt (segment * resourceHashmapMaxLen)) :
    ∃ i n, r.hashmapUpdate segment hm = .error (.index i n) := by
  have hcount := length_pieces resourceMapHashLen hm
  have hpos : 0 < hm.length / resourceMapHashLen := Nat.div_pos hlong (by decide)
  rw [IncomingResource.hashmapUpdate]
  cases hpieces : pieces resourceMapHashLen hm with
  | nil =>
    rw [hpieces, length_nil] at hcount
    omega
  | cons mh rest =>
    rw [hashmapLoop_neg (by omega)]
    exact ⟨_, _, rfl⟩

theorem height_le_totalParts (hr : r.Sound) : r.hashHeight ≤ r.totalParts := by
  rw [hr.height]
  exact Nat.le_trans countP_le_length (Nat.le_of_eq length_range)

theorem requestNext_sound (hr : r.Sound) :
    ∃ r' plain, r.requestNext = .ok (r', plain) ∧ r'.Sound := by
  have hsame : r.Sound := hr
  obtain ⟨hge, hlt, hheight, hpos⟩ := hr
  rw [IncomingResource.requestNext]
  split
  · exact ⟨r, none, rfl, hsame⟩
  · obtain ⟨start, hstart⟩ := Int.eq_ofNat_of_zero_le (show 0 ≤ r.consecutive + 1 by omega)
    obtain ⟨exhausted, asked, heq, -⟩ := requestLoop_eq r (r.totalParts + 1) start []
    rw [hstart, heq]
    dsimp only
    split
    · have hlast : r.index ((r.hashHeight : Int) - 1) = .ok (r.hashHeight - 1) := by
        have hcast : ((r.hashHeight : Int) - 1) = (r.hashHeight - 1 : Nat) := by omega
        rw [hcast]
        apply IncomingResource.index_natCast
        have hle := height_le_totalParts hsame
        omega
      rw [hlast]
      exact ⟨_, _, rfl, hge, hlt, hheight, hpos⟩
    · exact ⟨_, _, rfl, hge, hlt, hheight, hpos⟩

def Received.Sound : Received → Prop
  | .unmatched => True
  | .waiting r => r.Sound
  | .next r => r.Sound
  | .whole _ => True

theorem receive_sound (c : Crypto) (hr : r.Sound) (part : Bytes) :
    ∃ received, r.receive c part = .ok received ∧ received.Sound := by
  obtain ⟨hge, hlt, hheight, hpos⟩ := hr
  rw [IncomingResource.receive]
  obtain ⟨start, hstart⟩ := Int.eq_ofNat_of_zero_le (show 0 ≤ r.consecutive + 1 by omega)
  obtain ⟨found, hfound, -⟩ := findPart_eq r (c.mapHash r.randomHash part) r.window start
  rw [hstart, hfound]
  cases found with
  | none => exact ⟨.unmatched, rfl, trivial⟩
  | some i =>
    obtain ⟨c', hadvance, hle, hlt', -⟩ :=
      advanceConsecutive_eq (r.setPart i part) r.totalParts r.consecutive hge hlt
    dsimp only
    rw [hadvance]
    have hnext : { r.setPart i part with consecutive := c' : IncomingResource }.Sound :=
      ⟨Int.le_trans hge hle, hlt', hheight, hpos⟩
    dsimp only
    split
    · exact ⟨_, rfl, trivial⟩
    · split
      · refine ⟨_, rfl, ?_⟩
        rw [Received.Sound, IncomingResource.grow]
        split
        · exact ⟨hnext.consecutive_ge, hnext.consecutive_lt, hnext.height, hnext.height_pos⟩
        · exact hnext
      · exact ⟨_, rfl, hnext⟩

variable {t : IncomingTable} {v : Value}

theorem IncomingTable.Sound.update_some (ht : t.Sound) (hr : r.Sound) (hash : Bytes) :
    IncomingTable.Sound (update t hash (some r)) :=
  forall_update ht fun _ h => some.inj h ▸ hr

theorem IncomingTable.Sound.update_none (ht : t.Sound) (hash : Bytes) :
    IncomingTable.Sound (update t hash none) :=
  forall_update ht nofun

def EndsSound (outcome : Except Fault (IncomingTable × List Output)) : Prop :=
  ∃ t out, outcome = .ok (t, out) ∧ t.Sound

def KeepsSound (outcome : Except Fault (IncomingTable × List Output)) : Prop :=
  InRange outcome ∧ ∀ t out, outcome = .ok (t, out) → t.Sound

theorem EndsSound.keeps {outcome : Except Fault (IncomingTable × List Output)}
    (h : EndsSound outcome) : KeepsSound outcome := by
  obtain ⟨t, out, rfl, ht⟩ := h
  refine ⟨inRange_ok _, ?_⟩
  rintro _ _ ⟨⟩
  exact ht

theorem askNext_sound (ht : t.Sound) (hr : r.Sound) : EndsSound (t.askNext r) := by
  obtain ⟨r', plain, heq, hr'⟩ := requestNext_sound hr
  rw [IncomingTable.askNext, heq]
  exact ⟨_, _, rfl, ht.update_some hr' _⟩

theorem handlePart_sound (c : Crypto) (ht : t.Sound) (part : Bytes) (order : List Bytes) :
    EndsSound (t.handlePart c part order) := by
  induction order with
  | nil => exact ⟨t, [], rfl, ht⟩
  | cons hash order ih =>
    rw [IncomingTable.handlePart]
    cases hr : t hash with
    | none => exact ih
    | some r =>
      obtain ⟨received, heq, hsound⟩ := receive_sound c (ht hash r hr) part
      dsimp only
      rw [heq]
      cases received with
      | unmatched => exact ih
      | waiting r => exact ⟨_, _, rfl, ht.update_some hsound _⟩
      | next r => exact askNext_sound ht hsound
      | whole r => exact ⟨_, _, rfl, ht.update_none _⟩

theorem handleTick_sound (ht : t.Sound) (overdue : Bytes → Bool) (order : List Bytes) :
    EndsSound (IncomingTable.handleTick overdue order t) := by
  induction order generalizing t with
  | nil => exact ⟨t, [], rfl, ht⟩
  | cons hash order ih =>
    rw [IncomingTable.handleTick]
    cases hr : t hash with
    | none => exact ih ht
    | some r =>
      dsimp only
      split
      · split
        · exact ih (ht.update_none hash)
        · have hsound := ht hash r hr
          have hretry : r.retry.Sound := ⟨hsound.consecutive_ge, hsound.consecutive_lt,
            hsound.height, hsound.height_pos⟩
          obtain ⟨t', out, heq, ht'⟩ := askNext_sound ht hretry
          obtain ⟨t'', more, heq', ht''⟩ := ih ht'
          rw [heq]
          dsimp only
          rw [heq']
          exact ⟨_, _, rfl, ht''⟩
      · exact ih ht

theorem requestNext_openResource_fault (h : 0 < (openResource v).totalParts) :
    (openResource v).requestNext = .error (.index (-1) (openResource v).totalParts) := by
  have hloop : requestLoop (openResource v) ((openResource v).totalParts + 1)
      ((openResource v).consecutive + 1) [] = .ok (true, []) := by
    have hgo : ((0 : Nat) : Int) < (openResource v).totalParts ∧
        ([] : List Bytes).length < (openResource v).window := by
      exact ⟨by omega, by change 0 < resourceWindow; decide⟩
    have hstart : (openResource v).consecutive + 1 = ((0 : Nat) : Int) := rfl
    rw [hstart, requestLoop, if_pos hgo, IncomingResource.index_natCast h]
    rfl
  have hindex : (openResource v).index (((openResource v).hashHeight : Int) - 1) =
      .error (.index (-1) (openResource v).totalParts) :=
        if_neg (by change ¬(0 ≤ (-1 : Int) ∧ _); omega)
  rw [IncomingResource.requestNext, if_neg (by change ¬false = true; decide), hloop]
  dsimp only
  rw [if_pos rfl, hindex]

end

def noResources : IncomingTable := fun _ => none

theorem noResources_sound : noResources.Sound := by
  intro hash r h
  cases h

def linkStep (c : Crypto) (sdu : Int) (t : IncomingTable) (e : Event) : Option IncomingTable :=
  match t.handle c sdu e with
  | .ok (t, _) => some t
  | .error _ => none

def Safe (sdu : Int) (t : IncomingTable) : Event → Prop
  | .adv a v =>
    match readAdvertisement sdu a v with
    | .ok (.opened r) => t r.hash = none → resourceMapHashLen ≤ (v.get "m").bytes.length
    | _ => True
  | .hmu hash v =>
    match t.hmuFor hash v with
    | some (_, segment, hm) =>
      resourceMapHashLen ≤ hm.length → 0 ≤ goInt (segment * resourceHashmapMaxLen)
    | none => True
  | _ => True

section Steps
variable {c : Crypto} {sdu : Int} {t : IncomingTable} {hash : Bytes}

theorem hashmapUpdate_openResource (htotal : 0 < (openResource v).totalParts)
    {hm : Bytes} (h : resourceMapHashLen ≤ hm.length) :
    ∃ r, (openResource v).hashmapUpdate 0 hm = .ok r ∧ r.Sound := by
  have hheight : (openResource v).hashHeight =
      (range (openResource v).totalParts).countP (openResource v).hashmapSet :=
    (congrFun countP_false _).symm
  have hcount := length_pieces resourceMapHashLen hm
  have hpos : 0 < hm.length / resourceMapHashLen := Nat.div_pos h (by decide)
  rw [IncomingResource.hashmapUpdate]
  cases hpieces : pieces resourceMapHashLen hm with
  | nil =>
    rw [hpieces, length_nil] at hcount
    omega
  | cons mh rest =>
    rw [hashmapLoop_eq (by decide : goInt (0 * resourceHashmapMaxLen) = (0 : Nat)) 0 _ _
      (by decide)]
    obtain ⟨hcount', -, hconsecutive, htotal'⟩ := setHashes_height hheight 0 (mh :: rest)
    refine ⟨_, rfl, ?_, ?_, hcount', setHashes_height_pos hheight rfl htotal mh rest⟩
    · exact hconsecutive ▸ Int.le_refl _
    · rw [hconsecutive, htotal']
      change (-1 : Int) < _
      omega

theorem hashmapUpdate_short {r : IncomingResource} {hm : Bytes}
    (h : ¬resourceMapHashLen ≤ hm.length) (segment : Int) :
    r.hashmapUpdate segment hm = .ok { r with waitingHMU := false } := by
  have hpieces : pieces resourceMapHashLen hm = [] := by
    rw [← length_eq_zero_iff, length_pieces]
    exact Nat.div_eq_of_lt (by omega)
  rw [IncomingResource.hashmapUpdate, hpieces]
  rfl

theorem handleAdv_safe (ht : t.Sound) {a : Acceptance} :
    (Safe sdu t (.adv a v) → KeepsSound (t.handleAdv sdu a v)) ∧
    (InRange (t.handleAdv sdu a v) → Safe sdu t (.adv a v)) := by
  rw [IncomingTable.handleAdv, Safe]
  cases hread : readAdvertisement sdu a v with
  | error e =>
    refine ⟨fun _ => ⟨fun i n hindex => ?_, nofun⟩, fun _ => trivial⟩
    cases hindex
    exact readAdvertisement_ne_index hread
  | ok advertised =>
    cases advertised with
    | ignored | rejected hash => 
      exact ⟨fun _ => EndsSound.keeps ⟨t, _, rfl, ht⟩, fun _ => trivial⟩
    | opened r =>
      obtain ⟨rfl, htotal⟩ := readAdvertisement_opened hread
      dsimp only
      cases hfree : t (openResource v).hash with
      | some r => exact ⟨fun _ => EndsSound.keeps ⟨t, _, rfl, ht⟩, fun _ hnone => nomatch hnone⟩
      | none =>
        by_cases hlong : resourceMapHashLen ≤ (v.get "m").bytes.length
        · obtain ⟨r, heq, hr⟩ := hashmapUpdate_openResource htotal hlong
          rw [heq]
          exact ⟨fun _ => (askNext_sound ht hr).keeps, fun _ _ => hlong⟩
        · refine ⟨fun hsafe => absurd (hsafe rfl) hlong, fun hrange => ?_⟩
          rw [hashmapUpdate_short hlong] at hrange
          refine absurd ?_ (hrange (-1) (openResource v).totalParts)
          have hfault := requestNext_openResource_fault htotal
          change IncomingTable.askNext t (openResource v) = _
          rw [IncomingTable.askNext, hfault]

theorem handleHMU_safe (ht : t.Sound) :
    (Safe sdu t (.hmu hash v) → EndsSound (t.handleHMU hash v)) ∧
    (InRange (t.handleHMU hash v) → Safe sdu t (.hmu hash v)) := by
  rw [IncomingTable.handleHMU, Safe]
  cases hfor : t.hmuFor hash v with
  | none => exact ⟨fun _ => ⟨t, [], rfl, ht⟩, fun _ => trivial⟩
  | some found =>
    obtain ⟨r, segment, hm⟩ := found
    refine ⟨fun hsafe => ?_, fun hrange hlong => ?_⟩
    · obtain ⟨r', heq, hr'⟩ :=
        hashmapUpdate_sound (ht hash r (IncomingTable.hmuFor_eq_some hfor)) hsafe
      dsimp only
      rw [heq]
      exact askNext_sound ht hr'
    · by_contra hneg
      obtain ⟨i, n, heq⟩ := @hashmapUpdate_neg r segment hm hlong hneg
      dsimp only at hrange
      rw [heq] at hrange
      exact hrange i n rfl

theorem handle_safe (ht : t.Sound) (e : Event) : (Safe sdu t e → KeepsSound (t.handle c sdu e)) ∧
    (InRange (t.handle c sdu e) → Safe sdu t e) := by
  cases e with
  | adv a v => exact handleAdv_safe ht
  | hmu hash v => exact ⟨fun hsafe => ((handleHMU_safe ht).1 hsafe).keeps, (handleHMU_safe ht).2⟩
  | part order data => exact ⟨fun _ => (handlePart_sound c ht data order).keeps, fun _ => trivial⟩
  | cancel hash =>
    exact ⟨fun _ => EndsSound.keeps ⟨_, _, rfl, ht.update_none hash⟩, fun _ => trivial⟩
  | tick order overdue =>
    exact ⟨fun _ => (handleTick_sound ht overdue order).keeps, fun _ => trivial⟩

theorem safe_hmu_iff {segment hm : Value} : Safe sdu t (.hmu hash (.array [segment, hm])) ↔
      ((t hash).isSome → resourceMapHashLen ≤ hm.bytes.length →
        0 ≤ goInt (segment.asInt * resourceHashmapMaxLen)) := by
  have hfor : t.hmuFor hash (.array [segment, hm]) =
      (t hash).map fun r => (r, segment.asInt, hm.bytes) := by
    unfold IncomingTable.hmuFor
    cases t hash <;> rfl
  rw [Safe, hfor]
  cases t hash with
  | none => exact ⟨nofun, fun _ => trivial⟩
  | some r => exact ⟨fun h _ => h, fun h => h rfl⟩

theorem linkStep_sound {e : Event} {t' : IncomingTable} (ht : t.Sound)
    (h : linkStep c sdu t e = some t') : t'.Sound := by
  rw [linkStep] at h
  cases hhandle : t.handle c sdu e with rw [hhandle] at h
  | error fault => cases h
  | ok result =>
    cases h
    obtain ⟨hkeeps, hsafe⟩ := @handle_safe c sdu t ht e
    rw [hhandle] at hkeeps hsafe
    exact (hkeeps (hsafe (inRange_ok _))).2 _ _ rfl

/-- At every point of every run, an event uses only indexes inside the arrays exactly if it
is safe there. -/
theorem indexes_in_range_iff (h : Reaches (linkStep c sdu) (fun _ _ => True) noResources t)
    (e : Event) : InRange (t.handle c sdu e) ↔ Safe sdu t e := by
  have ht : t.Sound :=
    h.invariant noResources_sound fun s e s' hs _ hstep => linkStep_sound hs hstep
  obtain ⟨hkeeps, hsafe⟩ := @handle_safe c sdu t ht e
  exact ⟨hsafe, fun he => (hkeeps he).1⟩

end Steps

/-- Primitives under which every hash is the same. -/
def plainCrypto : Crypto where
  sum256 := fun _ => replicate fullHashLen 0
  length_sum256 := fun _ => length_replicate
  decrypt := some
  bunzip2 := some

def takesAll : Acceptance where
  servesRequests := false
  pendingRequest := fun _ => false
  acceptResources := some fun _ => true

/-- An advertisement of a number of parts with some map hashes. -/
def sampleAdv (n : Nat) (hm : Bytes) : Value :=
  .map
    [(.str "t", .ofNat 464), (.str "d", .ofNat 400), (.str "n", .ofNat n),
      (.str "h", .bin (replicate fullHashLen 7)),
      (.str "r", .bin (replicate resourceRandomHashLen 1)), (.str "l", .ofNat 1),
      (.str "f", .ofNat 1), (.str "m", .bin hm)]

/-- A further segment after an advertisement is written inside the arrays. -/
theorem indexes_in_range_second_segment : ∃ t, linkStep plainCrypto 464 noResources
        (.adv takesAll (sampleAdv 100 (replicate 296 2))) = some t ∧
      InRange (t.handle plainCrypto 464 (.hmu (replicate fullHashLen 7)
        (.array [.ofNat 1, .bin [1, 2, 3, 4]]))) := by
  have hsome : (linkStep plainCrypto 464 noResources
      (.adv takesAll (sampleAdv 100 (replicate 296 2)))).isSome := by decide +kernel
  obtain ⟨t, ht⟩ := isSome_iff_exists.1 hsome
  refine ⟨t, ht, (indexes_in_range_iff (.tail _ .refl trivial ht) _).2 ?_⟩
  exact safe_hmu_iff.2 fun _ _ => by decide +kernel

/-- An advertisement without a map hash uses an index below zero, and so does a segment with a
negative number for a resource that is received. -/
theorem index_out_of_range :
    ¬InRange (noResources.handle plainCrypto 464 (.adv takesAll (sampleAdv 1 []))) ∧
      ∃ t, linkStep plainCrypto 464 noResources (.adv takesAll (sampleAdv 1 [1, 2, 3, 4])) =
        some t ∧
        ¬InRange (t.handle plainCrypto 464 (.hmu (replicate fullHashLen 7)
          (.array [.int (-1), .bin [1, 2, 3, 4]]))) := by
  refine ⟨fun h => h (-1) 1 (by rfl), ?_⟩
  have hsome : ((linkStep plainCrypto 464 noResources
      (.adv takesAll (sampleAdv 1 [1, 2, 3, 4]))).bind fun t =>
        t (replicate fullHashLen 7)).isSome := rfl
  obtain ⟨r, hr⟩ := isSome_iff_exists.1 hsome
  obtain ⟨t, ht, htr⟩ := bind_eq_some_iff.1 hr
  have hsound : t.Sound := linkStep_sound noResources_sound ht
  refine ⟨t, ht, fun hrange => ?_⟩
  have hsafe := safe_hmu_iff.1 ((@handle_safe plainCrypto 464 t hsound _).2 hrange)
  exact absurd (hsafe (by rw [htr]; rfl) (by decide)) (by decide)

end MeshsatHub.Rns
