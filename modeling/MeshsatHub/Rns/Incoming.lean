import MeshsatHub.Foundations.Runs
import MeshsatHub.Rns.Outgoing

/-!
# Resources that are received

The receiver asks for the parts of a window at a time and for the next segment of map hashes. The
number of parts, the map hashes and the number of a segment are what the peer says. The arrays are
functions of the index. A missing part is empty, as a nil slice is. Times and the order of a map are
choices of the environment.
-/

namespace MeshsatHub.Rns
open Rnswire Slices Runs List Function

def resourceWindow : Nat := 4

def resourceWindowMin : Nat := 2

def resourceWindowMaxSlow : Nat := 10

def resourceWindowFlex : Nat := 4

def resourceMaxRetries : Nat := 16

def resourceMaxRequestSize : Nat := resourceMaxSize

def hashLen : Nat := 16

/-- What stops the program. -/
inductive Fault where
  | index (i : Int) (bound : Nat)
  | divide
  /-- An array of a length that `make` refuses. -/
  | length (n : Nat)

/-- The value of an integer expression of 64 bits. -/
def goInt (i : Int) : Int := i.bmod (2 ^ 64)

def goDiv (a b : Int) : Except Fault Int := if b = 0 then .error .divide else .ok (a.tdiv b)

/-- The bytes that `make` allocates at most. -/
def maxAlloc : Nat := 2 ^ 48

/-- The size of a `[]byte`, an element of `parts`. -/
def sliceSize : Nat := 24

structure IncomingResource where
  hash : Bytes
  size : Int
  dataSize : Int
  totalParts : Nat
  representable : totalParts < 2 ^ 63
  parts : Nat → Bytes
  hashmap : Nat → Bytes
  hashmapSet : Nat → Bool
  hashHeight : Nat
  randomHash : Bytes
  compressed : Bool
  received : Nat
  outstanding : Int
  window : Nat
  windowMax : Nat
  windowMin : Nat
  consecutive : Int
  waitingHMU : Bool
  retries : Nat
  requestID : Bytes
  isRequest : Bool
  isResponse : Bool

/-- Every index into the arrays is made here. -/
def IncomingResource.index (r : IncomingResource) (i : Int) : Except Fault Nat :=
  if 0 ≤ i ∧ i < r.totalParts then .ok i.toNat else .error (.index i r.totalParts)

structure Acceptance where
  /-- There is a local destination and it serves some path. -/
  servesRequests : Bool
  pendingRequest : Bytes → Bool
  acceptResources : Option (Int → Bool)

def flagSet (f : Int) (bit : Nat) : Bool := (BitVec.ofInt 64 f).getLsbD bit

inductive Advertised where
  | ignored
  | rejected (hash : Bytes)
  | opened (r : IncomingResource)

/-- The text of a request id, filled up with zeros. -/
def requestIDOf (q : Bytes) : Bytes := (q ++ replicate hashLen 0).take hashLen

/-- Whether a resource of this kind is taken. -/
def Acceptance.accepts (a : Acceptance) (isRequest isResponse : Bool) (requestID : Bytes)
    (d : Int) : Bool :=
  if isRequest then a.servesRequests && decide (d ≤ resourceMaxRequestSize)
  else if isResponse then a.pendingRequest requestID
  else
    match a.acceptResources with
    | none => false
    | some accepts => accepts d

def carries (bit : Nat) (v : Value) : Bool :=
  flagSet (v.get "f").asInt bit && (v.get "q").bytes.length == hashLen

/-- The resource of an advertisement; the number of parts that follows from the size gives way
to the advertised one. -/
def openResource (v : Value) : IncomingResource where
  hash := (v.get "h").bytes
  size := (v.get "t").asInt
  dataSize := (v.get "d").asInt
  totalParts := (v.get "n").asInt.toNat
  representable := by
    have hn := (v.get "n").asInt_lt
    omega
  parts := fun _ => []
  hashmap := fun _ => replicate resourceMapHashLen 0
  hashmapSet := fun _ => false
  hashHeight := 0
  randomHash := (v.get "r").bytes
  compressed := flagSet (v.get "f").asInt 1
  received := 0
  outstanding := 0
  window := resourceWindow
  windowMax := resourceWindowMaxSlow
  windowMin := resourceWindowMin
  consecutive := -1
  waitingHMU := false
  retries := 0
  requestID := requestIDOf (v.get "q").bytes
  isRequest := carries 3 v
  isResponse := carries 4 v

/-- The fields of an advertisement that is not passed over. -/
def wellFormed (v : Value) : Bool :=
  (v.get "h").bytes.length == fullHashLen && (v.get "r").bytes.length == resourceRandomHashLen &&
    decide (0 < (v.get "n").asInt) && decide (0 < (v.get "t").asInt) &&
    decide ((v.get "t").asInt ≤ 3 * resourceMaxSize)

def readAdvertisement (sdu : Int) (a : Acceptance) (v : Value) : Except Fault Advertised :=
  if ¬wellFormed v then .ok .ignored
  else if 1 < (v.get "l").asInt ∨ flagSet (v.get "f").asInt 5 then
    .ok (.rejected (v.get "h").bytes)
  else if a.accepts (carries 3 v) (carries 4 v) (requestIDOf (v.get "q").bytes)
      (v.get "d").asInt then
    match goDiv ((v.get "t").asInt + sdu - 1) sdu with
    | .error e => .error e
    | .ok _ =>
      -- `parts` is the largest of the arrays that are made
      if maxAlloc < (openResource v).totalParts * sliceSize then
        .error (.length (openResource v).totalParts)
      else .ok (.opened (openResource v))
  else .ok (.rejected (v.get "h").bytes)

variable {r : IncomingResource} {v : Value} {a : Acceptance}

theorem readAdvertisement_opened {sdu : Int}
    (h : readAdvertisement sdu a v = .ok (.opened r)) : r = openResource v ∧ 0 < r.totalParts := by
  revert h
  fun_cases readAdvertisement sdu a v with rintro ⟨⟩
  | case5 hvalid =>
    refine ⟨rfl, ?_⟩
    simp only [wellFormed, Bool.and_eq_true, decide_eq_true_eq, not_not] at hvalid
    change 0 < (v.get "n").asInt.toNat
    omega

theorem readAdvertisement_ne_index {sdu i : Int} {n : Nat} :
    readAdvertisement sdu a v ≠ .error (.index i n) := by
  fun_cases readAdvertisement sdu a v with
  | case3 _ _ _ e heq =>
    rw [goDiv] at heq
    split at heq <;> cases heq
    nofun
  | _ => nofun

def IncomingResource.setHash (r : IncomingResource) (i : Nat) (mh : Bytes) : IncomingResource :=
  { r with
    hashHeight := if r.hashmapSet i then r.hashHeight else r.hashHeight + 1
    hashmap := update r.hashmap i mh
    hashmapSet := update r.hashmapSet i true }

/-- The loop of `hashmapUpdate`. -/
def hashmapLoop (segment : Int) : Nat → List Bytes → IncomingResource →
    Except Fault IncomingResource
  | _, [], r => .ok r
  | i, mh :: rest, r =>
    let idx := goInt (i + goInt (segment * resourceHashmapMaxLen))
    if (r.totalParts : Int) ≤ idx then .ok r
    else
      match r.index idx with
      | .error e => .error e
      | .ok j => hashmapLoop segment (i + 1) rest (r.setHash j mh)

def IncomingResource.hashmapUpdate (r : IncomingResource) (segment : Int) (hm : Bytes) :
    Except Fault IncomingResource :=
  match hashmapLoop segment 0 (pieces resourceMapHashLen hm) r with
  | .error e => .error e
  | .ok r => .ok { r with waitingHMU := false }

/-- The loop of `requestNext`: whether the map hashes were exhausted, and what is asked for. -/
def requestLoop (r : IncomingResource) : Nat → Int → List Bytes → Except Fault (Bool × List Bytes)
  | 0, _, req => .ok (false, req)
  | fuel + 1, pn, req =>
    if pn < r.totalParts ∧ req.length < r.window then
      match r.index pn with
      | .error e => .error e
      | .ok j =>
        if r.parts j ≠ [] then requestLoop r fuel (pn + 1) req
        else if r.hashmapSet j then requestLoop r fuel (pn + 1) (req ++ [r.hashmap j])
        else .ok (true, req)
    else .ok (false, req)

def IncomingResource.requestNext (r : IncomingResource) :
    Except Fault (IncomingResource × Option Bytes) :=
  if r.waitingHMU then .ok (r, none)
  else
    match requestLoop r (r.totalParts + 1) (r.consecutive + 1) [] with
    | .error e => .error e
    | .ok (exhausted, req) =>
      let asked := { r with outstanding := req.length }
      if exhausted then
        match r.index (r.hashHeight - 1) with
        | .error e => .error e
        | .ok j =>
          .ok ({ asked with waitingHMU := true },
            some (resourceHashmapExh :: (r.hashmap j ++ r.hash ++ req.flatten)))
      else .ok (asked, some (resourceHashmapNotExh :: (r.hash ++ req.flatten)))

/-- The search of `receivePart` through the window. -/
def findPart (r : IncomingResource) (mh : Bytes) : Nat → Int → Except Fault (Option Nat)
  | 0, _ => .ok none
  | fuel + 1, idx =>
    if idx < r.totalParts then
      match r.index idx with
      | .error e => .error e
      | .ok j =>
        if r.hashmapSet j ∧ r.hashmap j = mh ∧ r.parts j = [] then .ok (some j)
        else findPart r mh fuel (idx + 1)
    else .ok none

def advanceConsecutive (r : IncomingResource) : Nat → Int → Except Fault Int
  | 0, c => .ok c
  | fuel + 1, c =>
    if c + 1 < r.totalParts then
      match r.index (c + 1) with
      | .error e => .error e
      | .ok j => if r.parts j ≠ [] then advanceConsecutive r fuel (c + 1) else .ok c
    else .ok c

/-- What a part means for a resource. -/
inductive Received where
  | unmatched
  | waiting (r : IncomingResource)
  | next (r : IncomingResource)
  | whole (r : IncomingResource)

def IncomingResource.grow (r : IncomingResource) : IncomingResource :=
  if r.window < r.windowMax then
    { r with
      window := r.window + 1
      windowMin :=
        if resourceWindowFlex - 1 < r.window + 1 - r.windowMin then r.windowMin + 1
        else r.windowMin }
  else r

def IncomingResource.setPart (r : IncomingResource) (i : Nat) (part : Bytes) : IncomingResource :=
  { r with
    parts := update r.parts i part
    received := r.received + 1
    outstanding := r.outstanding - 1
    retries := 0 }

/-- Look for the place of a part and put it there. -/
def IncomingResource.receive (c : Crypto) (r : IncomingResource) (part : Bytes) :
    Except Fault Received :=
  match findPart r (c.mapHash r.randomHash part) r.window (r.consecutive + 1) with
  | .error e => .error e
  | .ok none => .ok .unmatched
  | .ok (some i) =>
    match advanceConsecutive (r.setPart i part) r.totalParts r.consecutive with
    | .error e => .error e
    | .ok consecutive =>
      let r := { r.setPart i part with consecutive }
      if r.received = r.totalParts then .ok (.whole r)
      else if r.outstanding ≤ 0 then .ok (.next r.grow)
      else .ok (.waiting r)

/-- Put the parts together and check the result. -/
def Crypto.assemble (c : Crypto) (r : IncomingResource) : Option Bytes :=
  match c.decrypt ((range r.totalParts).flatMap r.parts) with
  | none => none
  | some plain =>
    if plain.length < resourceRandomHashLen then none
    else
      let data := plain.drop resourceRandomHashLen
      match (if r.compressed then c.bunzip2 data else some data) with
      | none => none
      | some data => if c.sum256 (data ++ r.randomHash) = r.hash then some data else none

/-! ## What the loops do -/

variable {r : IncomingResource} {segment : Int}

theorem IncomingResource.index_natCast {i : Nat} (h : i < r.totalParts) :
    r.index (i : Int) = .ok i := by
  rw [index, if_pos (by omega), Int.toNat_natCast]

theorem goInt_eq {i : Int} (hlow : -2 ^ 63 ≤ i) (hhigh : i < 2 ^ 63) : goInt i = i := by
  apply Int.bmod_eq_of_le <;> omega

/-- Write map hashes from an index on, as far as there are parts. -/
def IncomingResource.setHashes (r : IncomingResource) : Nat → List Bytes → IncomingResource
  | _, [] => r
  | i, mh :: rest => if i < r.totalParts then (r.setHash i mh).setHashes (i + 1) rest else r

theorem hashmapLoop_cons (segment : Int) (i : Nat) (mh : Bytes) (rest : List Bytes)
    (r : IncomingResource) :
    hashmapLoop segment i (mh :: rest) r =
      if (r.totalParts : Int) ≤ goInt (i + goInt (segment * resourceHashmapMaxLen)) then .ok r
      else
        match r.index (goInt (i + goInt (segment * resourceHashmapMaxLen))) with
        | .error e => .error e
        | .ok j => hashmapLoop segment (i + 1) rest (r.setHash j mh) := (rfl)

theorem hashmapLoop_eq {base : Nat} (hbase : goInt (segment * resourceHashmapMaxLen) = base)
    (i : Nat) (hs : List Bytes) (r : IncomingResource) (hlow : base + i < 2 ^ 63) :
    hashmapLoop segment i hs r = .ok (r.setHashes (base + i) hs) := by
  induction hs generalizing i r with
  | nil => rfl
  | cons mh rest ih =>
    have hidx : goInt (i + goInt (segment * resourceHashmapMaxLen)) = (base + i : Nat) := by
      rw [hbase, goInt_eq] <;> omega
    rw [hashmapLoop_cons, IncomingResource.setHashes, hidx]
    by_cases hin : base + i < r.totalParts
    · have hnext := r.representable
      rw [if_neg (by omega), IncomingResource.index_natCast hin, if_pos hin]
      exact ih (i + 1) (r.setHash (base + i) mh) (by omega)
    · rw [if_pos (by omega), if_neg hin]

theorem hashmapLoop_neg (hbase : goInt (segment * resourceHashmapMaxLen) < 0)
    (mh : Bytes) (rest : List Bytes) (r : IncomingResource) :
    hashmapLoop segment 0 (mh :: rest) r =
      .error (.index (goInt (segment * resourceHashmapMaxLen)) r.totalParts) := by
  have hidx : goInt ((0 : Nat) + goInt (segment * resourceHashmapMaxLen)) =
      goInt (segment * resourceHashmapMaxLen) := by
    rw [Int.natCast_zero, Int.zero_add, goInt, goInt, Int.bmod_bmod]
  rw [hashmapLoop_cons, hidx, if_neg (by omega), IncomingResource.index, if_neg (by omega)]

structure Asks (r : IncomingResource) (pn : Nat) (req : List Bytes) (exhausted : Bool)
    (asked : List Nat) : Prop where
  missing : ∀ j ∈ asked, pn ≤ j ∧ j < r.totalParts ∧ r.hashmapSet j = true
  exhausted : exhausted = true → (req ++ asked.map r.hashmap).length < r.window ∧
    ∃ m, pn ≤ m ∧ m < r.totalParts ∧ r.hashmapSet m = false ∧
      ∀ j, pn ≤ j → j < m → r.parts j ≠ [] ∨ j ∈ asked

theorem requestLoop_eq (r : IncomingResource) (fuel pn : Nat) (req : List Bytes) :
    ∃ exhausted asked, requestLoop r fuel pn req = .ok (exhausted, req ++ asked.map r.hashmap) ∧
      Asks r pn req exhausted asked := by
  induction fuel generalizing pn req with
  | zero =>
    refine ⟨false, [], by rw [requestLoop, map_nil, append_nil], ?_⟩
    exact ⟨nofun, nofun⟩
  | succ fuel ih =>
    rw [requestLoop]
    by_cases hgo : (pn : Int) < r.totalParts ∧ req.length < r.window
    · have hpn : pn < r.totalParts := by omega
      rw [if_pos hgo, IncomingResource.index_natCast hpn]
      dsimp only
      by_cases hpart : r.parts pn ≠ []
      · rw [if_pos hpart]
        obtain ⟨exhausted, asked, heq, hasks⟩ := ih (pn + 1) req
        refine ⟨exhausted, asked, heq, ?_, ?_⟩
        · intro j hj
          have hj' := hasks.missing j hj
          exact ⟨by omega, hj'.2⟩
        · intro hexhausted
          obtain ⟨hlength, m, hm, hmTotal, hmSet, hbelow⟩ := hasks.exhausted hexhausted
          refine ⟨hlength, m, by omega, hmTotal, hmSet, fun j hj hjm => ?_⟩
          by_cases heqj : j = pn
          · exact .inl (heqj ▸ hpart)
          · exact hbelow j (by omega) hjm
      · rw [if_neg hpart]
        by_cases hset : r.hashmapSet pn
        · rw [if_pos hset]
          obtain ⟨exhausted, asked, heq, hasks⟩ := ih (pn + 1) (req ++ [r.hashmap pn])
          have happend : req ++ [r.hashmap pn] ++ asked.map r.hashmap =
              req ++ (pn :: asked).map r.hashmap := by
            rw [append_assoc, map_cons, singleton_append]
          refine ⟨exhausted, pn :: asked, happend ▸ heq, ?_, ?_⟩
          · intro j hj
            obtain rfl | hj := mem_cons.1 hj
            · exact ⟨Nat.le_refl _, hpn, hset⟩
            · have hj' := hasks.missing j hj
              exact ⟨by omega, hj'.2⟩
          · intro hexhausted
            obtain ⟨hlength, m, hm, hmTotal, hmSet, hbelow⟩ := hasks.exhausted hexhausted
            refine ⟨happend ▸ hlength, m, by omega, hmTotal, hmSet, fun j hj hjm => ?_⟩
            by_cases heqj : j = pn
            · exact .inr (heqj ▸ mem_cons_self)
            · obtain hpart' | hasked := hbelow j (by omega) hjm
              · exact .inl hpart'
              · exact .inr (mem_cons_of_mem _ hasked)
        · rw [if_neg hset]
          refine ⟨true, [], by rw [map_nil, append_nil], nofun, ?_⟩
          intro _
          refine ⟨by simpa using hgo.2, pn, Nat.le_refl _, hpn, by simpa using hset, ?_⟩
          intro j hj hjm
          omega
    · rw [if_neg hgo]
      exact ⟨false, [], by rw [map_nil, append_nil], nofun, nofun⟩

theorem findPart_eq (r : IncomingResource) (mh : Bytes) (fuel idx : Nat) :
    ∃ found, findPart r mh fuel idx = .ok found ∧ ∀ j, found = some j →
      idx ≤ j ∧ j < idx + fuel ∧ j < r.totalParts ∧ r.hashmapSet j ∧ r.hashmap j = mh ∧
        r.parts j = [] := by
  induction fuel generalizing idx with
  | zero => exact ⟨none, rfl, nofun⟩
  | succ fuel ih =>
    rw [findPart]
    by_cases hidx : idx < r.totalParts
    · rw [if_pos (by omega), IncomingResource.index_natCast hidx]
      dsimp only
      split
      case isTrue hmatch =>
        refine ⟨some idx, rfl, ?_⟩
        rintro j ⟨⟩
        exact ⟨Nat.le_refl _, by omega, hidx, hmatch⟩
      case isFalse =>
        obtain ⟨found, heq, hfound⟩ := ih (idx + 1)
        refine ⟨found, heq, fun j hj => ?_⟩
        have hj' := hfound j hj
        exact ⟨by omega, by omega, hj'.2.2⟩
    · rw [if_neg (by omega)]
      exact ⟨none, rfl, nofun⟩

theorem advanceConsecutive_eq (r : IncomingResource) (fuel : Nat) (c : Int) (hlow : -1 ≤ c)
    (hhigh : c < r.totalParts) :
    ∃ c', advanceConsecutive r fuel c = .ok c' ∧ c ≤ c' ∧ c' < r.totalParts ∧
      ∀ j : Nat, c < j → (j : Int) ≤ c' → r.parts j ≠ [] := by
  induction fuel generalizing c with
  | zero => exact ⟨c, rfl, Int.le_refl _, hhigh, by omega⟩
  | succ fuel ih =>
    rw [advanceConsecutive]
    by_cases hin : c + 1 < r.totalParts
    · obtain ⟨i, hi⟩ := Int.eq_ofNat_of_zero_le (show 0 ≤ c + 1 by omega)
      rw [if_pos hin, hi, IncomingResource.index_natCast (by omega)]
      dsimp only
      split
      case isTrue hpart =>
        obtain ⟨c', heq, hle, hlt, hparts⟩ := ih i (by omega) (by omega)
        refine ⟨c', heq, by omega, hlt, fun j hj hjc => ?_⟩
        by_cases hji : j = i
        · exact hji ▸ hpart
        · exact hparts j (by omega) hjc
      case isFalse => exact ⟨c, rfl, Int.le_refl _, hhigh, by omega⟩
    · rw [if_neg hin]
      exact ⟨c, rfl, Int.le_refl _, hhigh, by omega⟩

/-- What a handler does besides changing the resources. -/
inductive Output where
  | request (plain : Bytes)
  | reject (hash : Bytes)
  | proof (data : Bytes)
  | resource (hash data : Bytes)

/-- The resources that are being received on a link, by their hash. -/
abbrev IncomingTable := Bytes → Option IncomingResource

/-- What a peer or the clock can cause. -/
inductive Event where
  | adv (a : Acceptance) (v : Value)
  | hmu (hash : Bytes) (v : Value)
  | part (order : List Bytes) (data : Bytes)
  | cancel (hash : Bytes)
  | tick (order : List Bytes) (overdue : Bytes → Bool)

namespace IncomingTable

variable (t : IncomingTable)

def askNext (r : IncomingResource) : Except Fault (IncomingTable × List Output) :=
  match r.requestNext with
  | .error e => .error e
  | .ok (r, plain) => .ok (update t r.hash (some r), (plain.map Output.request).toList)

def handleAdv (sdu : Int) (a : Acceptance) (v : Value) :
    Except Fault (IncomingTable × List Output) :=
  match readAdvertisement sdu a v with
  | .error e => .error e
  | .ok .ignored => .ok (t, [])
  | .ok (.rejected hash) => .ok (t, [.reject hash])
  | .ok (.opened r) =>
    match t r.hash with
    | some _ => .ok (t, [])
    | none =>
      match r.hashmapUpdate 0 (v.get "m").bytes with
      | .error e => .error e
      | .ok r => t.askNext r

def hmuFor (hash : Bytes) (v : Value) : Option (IncomingResource × Int × Bytes) :=
  match t hash, v with
  | some r, .array [segment, hm] => some (r, segment.asInt, hm.bytes)
  | _, _ => none

def handleHMU (hash : Bytes) (v : Value) : Except Fault (IncomingTable × List Output) :=
  match t.hmuFor hash v with
  | none => .ok (t, [])
  | some (r, segment, hm) =>
    match r.hashmapUpdate segment hm with
    | .error e => .error e
    | .ok r => t.askNext r

theorem hmuFor_eq_some {t : IncomingTable} {hash : Bytes} {hm : Bytes}
    (h : t.hmuFor hash v = some (r, segment, hm)) : t hash = some r := by
  unfold hmuFor at h
  split at h
  · cases h
    assumption
  · cases h

/-- The resource is whole: it is checked, and no longer received. -/
def conclude (c : Crypto) (r : IncomingResource) : IncomingTable × List Output :=
  (update t r.hash none,
    match c.assemble r with
    | none => []
    | some data => [.proof (r.hash ++ c.sum256 (data ++ r.hash)), .resource r.hash data])

/-- A part is offered to one resource after the other until one takes it. -/
def handlePart (t : IncomingTable) (c : Crypto) (part : Bytes) :
    List Bytes → Except Fault (IncomingTable × List Output)
  | [] => .ok (t, [])
  | hash :: order =>
    match t hash with
    | none => t.handlePart c part order
    | some r =>
      match r.receive c part with
      | .error e => .error e
      | .ok .unmatched => t.handlePart c part order
      | .ok (.waiting r) => .ok (update t r.hash (some r), [])
      | .ok (.next r) => t.askNext r
      | .ok (.whole r) => .ok (t.conclude c r)

end IncomingTable

/-- An overdue transfer is tried again with a smaller window. -/
def IncomingResource.retry (r : IncomingResource) : IncomingResource :=
  { r with
    retries := r.retries + 1
    window := if r.windowMin < r.window then r.window - 1 else r.window
    waitingHMU := false }

/-- The watchdog goes through the transfers that are overdue. -/
def IncomingTable.handleTick (overdue : Bytes → Bool) :
    List Bytes → IncomingTable → Except Fault (IncomingTable × List Output)
  | [], t => .ok (t, [])
  | hash :: order, t =>
    match t hash with
    | none => handleTick overdue order t
    | some r =>
      if overdue hash then
        if resourceMaxRetries ≤ r.retries then
          handleTick overdue order (update t hash none)
        else
          match t.askNext r.retry with
          | .error e => .error e
          | .ok (t, out) =>
            match handleTick overdue order t with
            | .error e => .error e
            | .ok (t, more) => .ok (t, out ++ more)
      else handleTick overdue order t

/-- What a link does with an event. -/
def IncomingTable.handle (c : Crypto) (sdu : Int) (t : IncomingTable) :
    Event → Except Fault (IncomingTable × List Output)
  | .adv a v => t.handleAdv sdu a v
  | .hmu hash v => t.handleHMU hash v
  | .part order data => t.handlePart c data order
  | .cancel hash => .ok (update t hash none, [])
  | .tick order overdue => handleTick overdue order t

end MeshsatHub.Rns
