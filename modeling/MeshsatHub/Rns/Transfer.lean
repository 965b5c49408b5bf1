import MeshsatHub.Rns.Receiving

/-!
# A transfer over a lossy link

The two ends of a resource are joined by channels that keep the order of their messages but may lose
any, and either watchdog may fire at any time. The receiver gets a segment of map hashes only after
the sender has handled a request that named the end of the segment before (`Level`). A channel loses
its oldest message, which lets it lose any of them.
-/

namespace MeshsatHub.Rns
open Rnswire Slices Runs List

/-- A message to the receiver. -/
inductive Down where
  | adv (v : Value)
  | part (data : Bytes)
  | hmu (hash : Bytes) (v : Value)

/-- A message to the sender. -/
inductive Up where
  | request (plain : Bytes)
  | proof (data : Bytes)
  | reject (hash : Bytes)

/-- The two ends of a transfer and what is on its way between them. -/
structure World where
  sender : Option OutgoingResource
  /-- What the transfer resolved to for its sender. -/
  verdict : Option (Except TransferError Unit)
  receiver : IncomingTable
  toReceiver : List Down
  toSender : List Up
  /-- The resources that the receiver has handed over. -/
  completed : List Bytes

/-- What happens next. -/
inductive Move where
  | deliverDown (a : Acceptance)
  | loseDown
  | deliverUp
  | loseUp
  | senderTick
  | receiverTick

def Output.up : Output → Option Up
  | .request plain => some (.request plain)
  | .reject hash => some (.reject hash)
  | .proof data => some (.proof data)
  | .resource _ _ => none

def Output.data : Output → Option Bytes
  | .resource _ data => some data
  | _ => none

variable (w : World)

/-- The receiver has handled something. -/
def World.absorb (t : IncomingTable) (out : List Output) : World :=
  { w with
    receiver := t
    toSender := w.toSender ++ out.filterMap Output.up
    completed := w.completed ++ out.filterMap Output.data }

def World.fail (err : TransferError) : World :=
  { w with sender := none, verdict := some (.error err) }

/-- The event that a message is for the receiver; it ranges over its only resource. -/
def Down.event (hash : Bytes) (a : Acceptance) : Down → Event
  | .adv v => .adv a v
  | .part data => .part [hash] data
  | .hmu hash v => .hmu hash v

variable (r : OutgoingResource)

/-- `handleResourceRequest` for the resource that is being sent. -/
def World.handleRequest (plain : Bytes) : World :=
  match parseResourceRequest plain with
  | none => w
  | some req =>
    if req.hash = r.hash then
      match r.serve req with
      | .cancelled _ err => w.fail err
      | .served r' parts hmu =>
        { w with
          sender := some r'
          toReceiver := w.toReceiver ++
            (parts.map Down.part ++ hmu.toList.map (Down.hmu r.hash)) }
    else w

/-- `handleResourceProof` for the resource that is being sent. -/
def World.handleProof (data : Bytes) : World :=
  if data.length = 2 * fullHashLen ∧ data.take fullHashLen = r.hash ∧
      data.drop fullHashLen = r.expectedProof then
    { w with sender := none, verdict := some (.ok ()) }
  else w

/-- A message reaches the sender. -/
def World.handleUp (u : Up) : World :=
  match w.sender with
  | none => w
  | some r =>
    match u with
    | .request plain => w.handleRequest r plain
    | .proof data => w.handleProof r data
    | .reject hash => if hash = r.hash then w.fail .rejected else w

/-- The watchdog of the sender finds the transfer overdue. -/
def World.tickSender : World :=
  match r.state with
  | .advertised =>
    if resourceMaxAdvRetries ≤ r.advRetries then w.fail .noRequests
    else
      { w with
        sender := some { r with advRetries := r.advRetries + 1 }
        toReceiver := w.toReceiver ++ [.adv (r.advertisement 0)] }
  | _ => w.fail .timedOut

def World.step (c : Crypto) (sdu : Int) (hash : Bytes) (w : World) : Move → Option World
  | .deliverDown a =>
    match w.toReceiver with
    | [] => none
    | d :: rest =>
      match w.receiver.handle c sdu (d.event hash a) with
      | .error _ => none
      | .ok (t, out) => some (({ w with toReceiver := rest } : World).absorb t out)
  | .loseDown =>
    match w.toReceiver with
    | [] => none
    | _ :: rest => some { w with toReceiver := rest }
  | .deliverUp =>
    match w.toSender with
    | [] => none
    | u :: rest => some (({ w with toSender := rest } : World).handleUp u)
  | .loseUp =>
    match w.toSender with
    | [] => none
    | _ :: rest => some { w with toSender := rest }
  | .senderTick => w.sender.map w.tickSender
  | .receiverTick =>
    match w.receiver.handle c sdu (.tick [hash] fun _ => true) with
    | .error _ => none
    | .ok (t, out) => some (w.absorb t out)

/-- The transfer has just been advertised. -/
def World.start (r₀ : OutgoingResource) : World where
  sender := some r₀
  verdict := none
  receiver := noResources
  toReceiver := [.adv (r₀.advertisement 0)]
  toSender := []
  completed := []

variable {r₀ : OutgoingResource} {m m' lo lo' hi top : Nat} {queue : List Up} {plain : Bytes}

/-- A request that the receiver sent when it had asked for segment `lo`, and with which it has
asked for segment `hi`; the sender was asked for segment `m`. -/
def RequestAt (r₀ : OutgoingResource) (m lo hi : Nat) (plain : Bytes) : Prop :=
  IsRequest r₀ ((lo * resourceHashmapMaxLen : Int) - resourceWindowMaxFast - 1)
      ((m + 1) * resourceHashmapMaxLen) none plain ∨
    0 < hi ∧ hi ≤ m + 1 ∧ hi * resourceHashmapMaxLen < r₀.parts.length ∧
      IsRequest r₀ ((lo * resourceHashmapMaxLen : Int) - resourceWindowMaxFast - 1)
        ((m + 1) * resourceHashmapMaxLen) (some hi) plain

/-- The requests on their way name segments from `lo` to `top` in increasing order. -/
def Ordered (r₀ : OutgoingResource) (m : Nat) : Nat → Nat → List Up → Prop
  | lo, top, [] => lo ≤ top
  | lo, top, .request plain :: rest =>
    ∃ hi, lo ≤ hi ∧ RequestAt r₀ m lo hi plain ∧ Ordered r₀ m hi top rest
  | lo, top, _ :: rest => Ordered r₀ m lo top rest

theorem IsRequest.mono {low low' high high' : Int} {segment : Option Nat}
    (h : IsRequest r₀ low high segment plain) (hlow : low' ≤ low) (hhigh : high ≤ high') :
    IsRequest r₀ low' high' segment plain := by
  obtain ⟨asked, hasked, hplain⟩ := h
  refine ⟨asked, fun j hj => ?_, hplain⟩
  obtain ⟨hl, hh, hj'⟩ := hasked j hj
  exact ⟨by omega, by omega, hj'⟩

theorem RequestAt.mono (h : RequestAt r₀ m lo hi plain) (hm : m ≤ m') (hlo : lo' ≤ lo) :
    RequestAt r₀ m' lo' hi plain := by
  have hlow : ((lo' * resourceHashmapMaxLen : Int) - resourceWindowMaxFast - 1) ≤
      (lo * resourceHashmapMaxLen : Int) - resourceWindowMaxFast - 1 := by
    have := Nat.mul_le_mul_right resourceHashmapMaxLen hlo
    omega
  have hhigh : ((m + 1) * resourceHashmapMaxLen : Int) ≤ (m' + 1) * resourceHashmapMaxLen := by
    exact_mod_cast Nat.mul_le_mul_right resourceHashmapMaxLen (Nat.add_le_add_right hm 1)
  obtain h | ⟨hpos, hle, hin, h⟩ := h
  · exact .inl (h.mono hlow hhigh)
  · exact .inr ⟨hpos, by omega, hin, h.mono hlow hhigh⟩

theorem Ordered.mono (h : Ordered r₀ m lo top queue) (hm : m ≤ m') (hlo : lo' ≤ lo) :
    Ordered r₀ m' lo' top queue := by
  induction queue generalizing lo lo' with
  | nil => exact Nat.le_trans hlo h
  | cons u rest ih =>
    cases u with
    | request plain =>
      obtain ⟨hi, hle, hat, hrest⟩ := h
      exact ⟨hi, by omega, hat.mono hm hlo, ih hrest (Nat.le_refl _)⟩
    | proof data | reject hash => exact ih h hlo

theorem Ordered.le (h : Ordered r₀ m lo top queue) : lo ≤ top := by
  induction queue generalizing lo with
  | nil => exact h
  | cons u rest ih =>
    cases u with
    | request plain =>
      obtain ⟨hi, hle, -, hrest⟩ := h
      exact Nat.le_trans hle (ih hrest)
    | proof data | reject hash => exact ih h

theorem Ordered.tail {u : Up} (h : Ordered r₀ m lo top (u :: queue)) :
    Ordered r₀ m lo top queue := by
  cases u with
  | request plain =>
    obtain ⟨hi, hle, -, hrest⟩ := h
    exact hrest.mono (Nat.le_refl _) hle
  | proof data | reject hash => exact h

section
variable (h : Ordered r₀ m lo top queue)
include h

theorem Ordered.append {more : List Up}
    (hmore : ∀ lo ≤ top, Ordered r₀ m lo hi more) : Ordered r₀ m lo hi (queue ++ more) := by
  induction queue generalizing lo with
  | nil => exact hmore lo h
  | cons u rest ih =>
    cases u with
    | request plain' =>
      obtain ⟨hi', hle', hat', hrest⟩ := h
      exact ⟨hi', hle', hat', ih hrest⟩
    | proof data | reject hash => exact ih h

theorem Ordered.request (hle : top ≤ hi)
    (hat : RequestAt r₀ m top hi plain) : Ordered r₀ m lo hi (queue ++ [.request plain]) := by
  refine h.append fun lo hlo => ?_
  exact ⟨hi, Nat.le_trans hlo hle, hat.mono (Nat.le_refl _) hlo, Nat.le_refl _⟩

theorem Ordered.append_other {others : List Up}
    (hothers : ∀ plain, .request plain ∉ others) : Ordered r₀ m lo top (queue ++ others) := by
  refine h.append fun lo hlo => ?_
  induction others with
  | nil => exact hlo
  | cons u others ih =>
    cases u with
    | request plain => exact absurd mem_cons_self (hothers plain)
    | proof data | reject hash => exact ih fun plain hp => hothers plain (mem_cons_of_mem _ hp)

end

theorem RequestAt.parse {c : Crypto} (hp : Prepared c r₀) (h : RequestAt r₀ m lo hi plain) :
    ∃ req, parseResourceRequest plain = some req ∧ req.hash = r₀.hash ∧
      (∀ mh ∈ req.wanted, ∃ j : Nat,
        (lo * resourceHashmapMaxLen : Int) - resourceWindowMaxFast - 1 ≤ j ∧
        (j : Int) < (m + 1) * resourceHashmapMaxLen ∧ j < r₀.parts.length ∧
        r₀.mapHashes.getD j [] = mh) ∧
      (req.exhausted = false ∨ req.exhausted ∧ 0 < hi ∧ hi ≤ m + 1 ∧
        hi * resourceHashmapMaxLen < r₀.parts.length ∧
        req.lastMap = r₀.mapHashes.getD (hi * resourceHashmapMaxLen - 1) []) := by
  have hwanted : ∀ asked : List Nat, (∀ j ∈ asked,
      (lo * resourceHashmapMaxLen : Int) - resourceWindowMaxFast - 1 ≤ (j : Int) ∧
        (j : Int) < (m + 1) * resourceHashmapMaxLen ∧ j < r₀.parts.length) →
      (∀ mh ∈ asked.map (r₀.mapHashes.getD · []), mh.length = resourceMapHashLen) ∧
      ∀ mh ∈ asked.map (r₀.mapHashes.getD · []), ∃ j : Nat,
        (lo * resourceHashmapMaxLen : Int) - resourceWindowMaxFast - 1 ≤ j ∧
        (j : Int) < (m + 1) * resourceHashmapMaxLen ∧ j < r₀.parts.length ∧
        r₀.mapHashes.getD j [] = mh := by
    intro asked hasked
    constructor <;> intro mh hmh <;> obtain ⟨j, hj, rfl⟩ := mem_map.1 hmh
    · exact length_getD_mapHashes hp (hasked j hj).2.2
    · exact ⟨j, (hasked j hj).1, (hasked j hj).2.1, (hasked j hj).2.2, rfl⟩
  obtain ⟨asked, hasked, rfl⟩ | ⟨hpos, hle, hin, asked, hasked, rfl⟩ := h
  · obtain ⟨hlengths, hindexes⟩ := hwanted asked hasked
    exact ⟨_, parseResourceRequest_notExh hp.hash_length hlengths, rfl, hindexes, .inl rfl⟩
  · obtain ⟨hlengths, hindexes⟩ := hwanted asked hasked
    have hlast := length_getD_mapHashes hp (show hi * resourceHashmapMaxLen - 1 < _ by omega)
    exact ⟨_, parseResourceRequest_exh hlast hp.hash_length hlengths, rfl, hindexes,
      .inr ⟨rfl, hpos, hle, hin, rfl⟩⟩

variable {c : Crypto} {a : Nat} {r : IncomingResource}

/-- A receiver that has asked for segment `a` knows the map hashes of some segments up to the
one that the sender was asked for, and lacks few of the parts before segment `a`. -/
structure Level (r₀ : OutgoingResource) (m a : Nat) (r : IncomingResource) : Prop where
  knows : Knows r₀ r
  holds : Holds r₀ r
  nonempty : 0 < r₀.parts.length
  height : ∃ k, 0 < k ∧ r.hashHeight = min (k * resourceHashmapMaxLen) r₀.parts.length ∧
    a ≤ k ∧ k ≤ m + 1
  near : (a * resourceHashmapMaxLen : Int) ≤ r.consecutive + 2 * resourceWindowMaxSlow + 1

theorem Level.mono (h : Level r₀ m a r) (hm : m ≤ m') : Level r₀ m' a r := by
  obtain ⟨k, hk, hheight, hak, hkm⟩ := h.height
  exact ⟨h.knows, h.holds, h.nonempty, ⟨k, hk, hheight, hak, by omega⟩, h.near⟩

theorem Level.advance (h : Level r₀ m a r) {r' : IncomingResource} (hknows : Knows r₀ r')
    (hholds : Holds r₀ r') (hheight : r'.hashHeight = r.hashHeight)
    (hle : r.consecutive ≤ r'.consecutive) : Level r₀ m a r' := by
  have hnear := h.near
  exact ⟨hknows, hholds, h.nonempty, hheight ▸ h.height, by omega⟩

theorem Level.height_pos (h : Level r₀ m a r) : 0 < r.hashHeight := by
  obtain ⟨k, hk, hheight, -, -⟩ := h.height
  have hpos := Nat.mul_pos hk (show 0 < resourceHashmapMaxLen by decide)
  have hparts := h.nonempty
  omega

/-- A request takes its place behind those on their way. A receiver without any part does not
ask for a segment. -/
theorem askNext_spec (t : IncomingTable) (h : Level r₀ m a r) :
    ∃ (r' : IncomingResource) (plain : Option Bytes) (a' : Nat), t.askNext r =
        .ok (Function.update t r₀.hash (some r'), (plain.map Output.request).toList) ∧
      Level r₀ m a' r' ∧ r'.consecutive = r.consecutive ∧ (r.consecutive = -1 → a' = a) ∧
      ∀ queue, Ordered r₀ m m a queue →
        Ordered r₀ m m a' (queue ++ (plain.map Up.request).toList) := by
  obtain ⟨r', plain, heq, hknows, hholds, hheight, hconsecutive, -, hplain⟩ :=
    requestNext_spec h.knows h.holds h.height_pos
  obtain ⟨k, hk, hk', hak, hkm⟩ := h.height
  have hnear := h.near
  have htable : t.askNext r =
      .ok (Function.update t r₀.hash (some r'), (plain.map Output.request).toList) := by
    rw [IncomingTable.askNext, heq]
    dsimp only
    rw [hholds.hash]
  have hkeep : Level r₀ m a r' := h.advance hknows hholds hheight (by omega)
  have hslow : resourceWindowMaxSlow = 10 := rfl
  have hfast : resourceWindowMaxFast = 75 := rfl
  have hlow : (a * resourceHashmapMaxLen : Int) - resourceWindowMaxFast - 1 ≤
      r.consecutive + 1 := by omega
  have hhigh : (r.hashHeight : Int) ≤ (m + 1) * resourceHashmapMaxLen := by
    have hle : r.hashHeight ≤ (m + 1) * resourceHashmapMaxLen := by
      have := Nat.mul_le_mul_right resourceHashmapMaxLen hkm
      omega
    exact_mod_cast hle
  cases plain with
  | none =>
    refine ⟨r', none, a, htable, hkeep, hconsecutive, fun _ => rfl, fun queue hqueue => ?_⟩
    rw [Option.map_none, Option.toList_none, append_nil]
    exact hqueue
  | some plain =>
    obtain hrequest | ⟨hlt, hle, hrequest⟩ := hplain plain rfl
    · exact ⟨r', some plain, a, htable, hkeep, hconsecutive, fun _ => rfl, fun queue hqueue =>
        hqueue.request (Nat.le_refl _) (.inl (hrequest.mono hlow hhigh))⟩
    · -- the map hashes that are known end with segment `k`
      have htotal := h.holds.total
      have hsegment : r.hashHeight = k * resourceHashmapMaxLen := by omega
      refine ⟨r', some plain, k, htable, ⟨hknows, hholds, h.nonempty,
        ⟨k, hk, hheight ▸ hk', Nat.le_refl _, hkm⟩, ?_⟩, hconsecutive, fun hnone => ?_,
        fun queue hqueue => hqueue.request hak (.inr ⟨hk, hkm, by omega,
          (hrequest k hsegment).mono hlow hhigh⟩)⟩
      · rw [hsegment, Int.natCast_mul] at hle
        omega
      · have hmul := Nat.mul_le_mul_right resourceHashmapMaxLen hk
        have hlen : resourceHashmapMaxLen = 74 := by decide
        omega

theorem Level.hashmapUpdate (hp : Prepared c r₀) (h : Level r₀ m a r) {segment : Nat}
    (hin : segment * resourceHashmapMaxLen ≤ r₀.parts.length) (hle : segment ≤ m) (hma : m ≤ a) :
    ∃ r', r.hashmapUpdate segment (r₀.segmentHashes segment).flatten = .ok r' ∧
      Level r₀ m a r' := by
  obtain ⟨k, hk, hheight, hak, hkm⟩ := h.height
  have hmul := Nat.mul_le_mul_right resourceHashmapMaxLen (show segment ≤ k by omega)
  obtain ⟨r', heq, hknows, hholds, hheight', hconsecutive, -⟩ :=
    knows_hashmapUpdate hp h.knows h.holds hin (by omega)
  refine ⟨r', heq, hknows, hholds, h.nonempty,
    ⟨max k (segment + 1), by omega, ?_, by omega, by omega⟩, hconsecutive ▸ h.near⟩
  obtain hks | hks := Nat.le_total k (segment + 1)
  · have := Nat.mul_le_mul_right resourceHashmapMaxLen hks
    rw [Nat.max_eq_right hks]
    omega
  · have := Nat.mul_le_mul_right resourceHashmapMaxLen hks
    rw [Nat.max_eq_left hks]
    omega

theorem level_openResource (hp : Prepared c r₀) (hsize : r₀.parts.length < 2 ^ 63)
    (hpos : 0 < (openResource (r₀.advertisement 0)).totalParts) :
    ∃ r, (openResource (r₀.advertisement 0)).hashmapUpdate 0
        ((r₀.advertisement 0).get "m").bytes = .ok r ∧
      Level r₀ m 0 r ∧ r.consecutive = -1 := by
  have hholds := holds_openResource hsize hpos
  obtain ⟨r, heq, hknows, hholds', hheight, hconsecutive, -⟩ :=
    knows_hashmapUpdate hp (knows_openResource (r₀.advertisement 0)) hholds
      (show 0 * resourceHashmapMaxLen ≤ _ by omega) (by omega)
  have hnone : r.consecutive = -1 := hconsecutive
  refine ⟨r, heq, ⟨hknows, hholds', hholds.total ▸ hpos, ⟨1, by decide, ?_, by decide, by omega⟩,
    ?_⟩, hnone⟩
  · rw [hheight]
    exact Nat.zero_max _
  · rw [hnone]
    decide

end MeshsatHub.Rns
