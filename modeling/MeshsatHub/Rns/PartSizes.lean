import MeshsatHub.Rns.Delivery

/-!
# Part sizes

The part size of a link is what its MTU leaves beside the headers, and the MTU is the peer's choice.
Three functions later the part size is a divisor and the step of a loop. The sender draws random
hashes until the slices have different map hashes, so a small part size keeps it drawing for ever.
-/

namespace MeshsatHub.Rns
open Rnswire Slices List

variable {c : Crypto} {l : Link} {payload enc : Bytes} {draws : List Bytes}

/-- The part size of a link is positive and divides every size, and a stream is sent with these
draws: the loop ends, with slices that lie in the stream and make it up. -/
def UsablePartSize (c : Crypto) (l : Link) (payload enc : Bytes) (draws : List Bytes) : Prop :=
  0 < l.sdu ∧ (∀ t, ∃ n, goDiv (t + l.sdu - 1) l.sdu = .ok n) ∧
    ∀ requestID isResponse, ∃ r,
      c.sendResource l payload enc draws requestID isResponse = .ok r ∧ r.parts.flatten = enc

/-- The slices of the stream have different map hashes under one of the draws. -/
def ToldApart (c : Crypto) (sdu : Int) (enc : Bytes) (draws : List Bytes) : Prop :=
  ∃ random ∈ draws, ((slices sdu.toNat enc).map (c.mapHash random)).Nodup

theorem exists_sendResource_iff (hsdu : 0 < l.sdu) (hpayload : payload.length ≤ resourceMaxSize)
    (requestID : Option Bytes) (isResponse : Bool) :
    (∃ r, c.sendResource l payload enc draws requestID isResponse = .ok r ∧
      r.parts.flatten = enc) ↔ ToldApart c l.sdu enc draws := by
  rw [Crypto.sendResource, if_neg (Nat.not_lt.2 hpayload), drawLoop_eq hsdu]
  cases hfind : draws.find? fun random =>
      ((slices l.sdu.toNat enc).map (c.mapHash random)).Nodup with
  | none =>
    -- the loop is still drawing
    constructor
    · rintro ⟨_, ⟨⟩, -⟩
    · rintro ⟨random, hmem, hnodup⟩
      exact absurd (decide_eq_true hnodup) (find?_eq_none.1 hfind random hmem)
  | some random =>
    have hnodup := find?_some hfind
    rw [decide_eq_true_eq] at hnodup
    exact ⟨fun _ => ⟨random, mem_of_find?_eq_some hfind, hnodup⟩,
      fun _ => ⟨_, rfl, flatten_slices (by omega) enc⟩⟩

/-- A resource is sent on an accepted link exactly if neither the MTU that the request signals nor
that of the interface is used up by the headers, and a draw tells the slices of the stream apart. -/
theorem part_size_usable_iff {d : Responder} {data : Bytes} (h : accept d data = some l)
    (hpayload : payload.length ≤ resourceMaxSize) :
    UsablePartSize c l payload enc draws ↔
      Roomy d.hwMTU data ∧ ToldApart c l.sdu enc draws := by
  rw [← sdu_pos_iff h]
  constructor
  · rintro ⟨hpos, -, hsend⟩
    exact ⟨hpos, (exists_sendResource_iff hpos hpayload none false).1 (hsend none false)⟩
  · rintro ⟨hpos, happart⟩
    refine ⟨hpos, fun t => ⟨_, if_neg (Int.ne_of_gt hpos)⟩, fun requestID isResponse => ?_⟩
    exact (exists_sendResource_iff hpos hpayload requestID isResponse).2 happart

theorem slices_one (xs : Bytes) : slices 1 xs = xs.map fun x => [x] := by
  induction xs with
  | nil => rfl
  | cons x xs ih =>
    rw [slices_of_ne_nil Nat.one_pos (cons_ne_nil x xs), map_cons, ← ih]
    rfl

/-- Slices of one byte are told apart in no stream of more than 256 bytes. -/
theorem not_toldApart_one (hlength : 256 < enc.length) : ¬ToldApart c 1 enc draws := by
  rintro ⟨random, -, hnodup⟩
  have hslices : (slices 1 enc).Nodup := hnodup.of_map
  rw [slices_one] at hslices
  have hbytes : (enc.map UInt8.toFin).Nodup := hslices.of_map.map fun x y => UInt8.toFin_inj.1
  have hcard := hbytes.length_le_card
  rw [length_map, Fintype.card_fin] at hcard
  exact absurd hlength (Nat.not_lt.2 hcard)

def tcpResponder : Responder where
  acceptLinks := true
  linkID := some (replicate 16 0)
  hwMTU := hwMTU
  agree := some

def requestWithMTU (mtu : UInt8) : Bytes := replicate linkECPubSize 9 ++ [0x20, 0, mtu]

/-- The smallest MTU that leaves room for a part: the draw tells three bytes apart. -/
theorem part_size_usable_thirty_seven : ∃ l, accept tcpResponder (requestWithMTU 37) = some l ∧
      UsablePartSize frontCrypto l [] [1, 2, 3] [[7, 7, 7, 7]] := by
  have hsdu : (accept tcpResponder (requestWithMTU 37)).map Link.sdu = some 1 := rfl
  obtain ⟨l, hl, hone⟩ := Option.map_eq_some_iff.1 hsdu
  refine ⟨l, hl, (part_size_usable_iff hl (by decide)).2 ⟨(sdu_pos_iff hl).1 (by omega), ?_⟩⟩
  rw [hone]
  exact ⟨_, mem_singleton_self _, by decide⟩

/-- A request that signals an MTU of 36 is accepted, and on that link the first advertisement
divides by zero. After one that signals 37 no stream of more than 256 bytes is ever sent. -/
theorem part_size_zero : (∃ l, accept tcpResponder (requestWithMTU 36) = some l ∧
      (∀ payload enc draws, ¬UsablePartSize frontCrypto l payload enc draws) ∧
      noResources.handle plainCrypto l.sdu (.adv takesAll (sampleAdv 1 [1, 2, 3, 4])) =
        .error .divide) ∧
    ∃ l, accept tcpResponder (requestWithMTU 37) = some l ∧
      ∀ c payload enc draws, payload.length ≤ resourceMaxSize → 256 < enc.length →
        ¬UsablePartSize c l payload enc draws := by
  constructor
  · have hsdu : (accept tcpResponder (requestWithMTU 36)).map Link.sdu = some 0 := rfl
    obtain ⟨l, hl, hzero⟩ := Option.map_eq_some_iff.1 hsdu
    refine ⟨l, hl, fun _ _ _ husable => ?_, ?_⟩
    · exact absurd (hzero ▸ husable.1) (by decide)
    · rw [hzero]
      rfl
  · have hsdu : (accept tcpResponder (requestWithMTU 37)).map Link.sdu = some 1 := rfl
    obtain ⟨l, hl, hone⟩ := Option.map_eq_some_iff.1 hsdu
    refine ⟨l, hl, fun c payload enc draws hpayload hlength husable => ?_⟩
    obtain ⟨hpos, -, hsend⟩ := husable
    have happart := (exists_sendResource_iff hpos hpayload none false).1 (hsend none false)
    exact not_toldApart_one hlength (hone ▸ happart)

end MeshsatHub.Rns
