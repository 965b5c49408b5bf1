import Mathlib
import MeshsatHub.Oob.Replies

/-!
# Joining the segments of a reply

`assemble` counts the segments in a byte that it compares with a byte. With all of 255 the counter
wraps to zero before it passes the total. The loop has nothing as its outcome as long as it has not
ended.
-/

namespace MeshsatHub.Oob
open List Option

abbrev Segments := UInt8 → Option Reply

variable (segments : Segments)

def Segments.size : Nat :=
  ((Finset.range 256).filter fun n => (segments (UInt8.ofNat n)).isSome).card

/-- The loop, for so many turns at most, from a number on and with the body so far. -/
def collect (segments : Segments) (total : UInt8) :
    Nat → UInt8 → List UInt8 → Option (Option (List UInt8))
  | 0, _, _ => none
  | fuel + 1, i, body =>
    if i ≤ total then
      match segments i with
      | none => some none
      | some segment => collect segments total fuel (i + 1) (body ++ segment.body)
    else some (some body)

/-- The segment of the last number with the bodies of all, if the loop ends in time. -/
def assemble (fuel : Nat) (segments : Segments) (total : UInt8) : Option (Option Reply) :=
  if total = 0 ∨ segments.size < total.toNat then some none
  else
    (collect segments total fuel 1 []).map fun found =>
      found.map fun body =>
        { (segments total).getD ⟨0, [], 0, 0, 0⟩ with body := body, seq := total.toNat }

def Segments.Complete (total : UInt8) : Prop :=
  ∀ i, 1 ≤ i → i ≤ total → (segments i).isSome

def Segments.part (i : UInt8) : List UInt8 :=
  ((segments i).map (·.body)).getD []

/-- The assembly ends, with a reply if and only if all segments are there, which is then their
bodies in order and the result code of the last. -/
def Assembled (total : UInt8) : Prop :=
  ∃ fuel result, assemble fuel segments total = some result ∧
    (result.isSome ↔ segments.Complete total) ∧
    ∀ reply, result = some reply →
      reply.body = (range' 1 total.toNat).flatMap (fun n => segments.part (UInt8.ofNat n)) ∧
      (segments total).map (·.rc) = some reply.rc

variable {segments : Segments} {total : UInt8} {fuel n : Nat}

theorem toNat_ofNat (h : n < 256) : (UInt8.ofNat n).toNat = n :=
  UInt8.toNat_ofNat_of_lt' h

theorem collect_of_missing {j : UInt8} (hj : segments j = none) (hjt : j ≤ total)
    {i : UInt8} (hij : i ≤ j) (hfuel : j.toNat - i.toNat < fuel) (body : List UInt8) :
    collect segments total fuel i body = some none := by
  induction fuel generalizing i body with
  | zero => omega
  | succ fuel ih =>
    rw [collect, if_pos (UInt8.le_trans hij hjt)]
    split
    · rfl
    · next segment hi =>
      have hne : i ≠ j := by
        rintro rfl
        cases hj.symm.trans hi
      have hlt : i.toNat < j.toNat :=
        Nat.lt_of_le_of_ne (UInt8.le_iff_toNat_le.1 hij) fun h => hne (UInt8.toNat_inj.1 h)
      have hnext : (i + 1).toNat = i.toNat + 1 := by
        have hj := j.toNat_lt
        rw [UInt8.toNat_add, UInt8.toNat_one, Nat.mod_eq_of_lt (by omega)]
      apply ih
      · rw [UInt8.le_iff_toNat_le]
        omega
      · omega

theorem collect_of_complete (htotal : total.toNat < 255) (n k : Nat) (hk : k + n = total.toNat + 1)
    (hpresent : ∀ j ∈ range' k n, (segments (UInt8.ofNat j)).isSome)
    (hfuel : n < fuel) (body : List UInt8) :
    collect segments total fuel (UInt8.ofNat k) body =
      some (some (body ++ (range' k n).flatMap fun j => segments.part (UInt8.ofNat j))) := by
  obtain ⟨fuel, rfl⟩ := Nat.exists_eq_add_one_of_ne_zero (Nat.ne_zero_of_lt hfuel)
  have hcounter : (UInt8.ofNat k).toNat = k := toNat_ofNat (by omega)
  induction n generalizing k fuel body with
  | zero =>
    have hpast : ¬ UInt8.ofNat k ≤ total := by
      rw [UInt8.le_iff_toNat_le, hcounter]
      omega
    rw [collect, if_neg hpast, range'_zero, flatMap_nil, append_nil]
  | succ n ih =>
    have hwithin : UInt8.ofNat k ≤ total := by
      rw [UInt8.le_iff_toNat_le, hcounter]
      omega
    rw [range'_succ] at hpresent ⊢
    obtain ⟨segment, hsegment⟩ := isSome_iff_exists.1 (hpresent k mem_cons_self)
    have hpart : segments.part (UInt8.ofNat k) = segment.body := by
      rw [Segments.part, hsegment, map_some, getD_some]
    obtain ⟨fuel, rfl⟩ := Nat.exists_eq_add_one_of_ne_zero (n := fuel) (by omega)
    have hnext : UInt8.ofNat k + 1 = UInt8.ofNat (k + 1) := UInt8.ofNat_add k 1 |>.symm
    rw [collect, if_pos hwithin, hsegment, hnext]
    dsimp only
    rw [ih (k + 1) (by omega) (fun j hj => hpresent j (mem_cons_of_mem _ hj)) _ fuel
      (by omega) (toNat_ofNat (by omega)), flatMap_cons, hpart,
      append_assoc]

theorem collect_top (fuel : Nat) (i : UInt8) (body found : List UInt8) :
    collect segments 255 fuel i body ≠ some (some found) := by
  induction fuel generalizing i body with
  | zero => rintro ⟨⟩
  | succ fuel ih =>
    have hwithin : i ≤ 255 := UInt8.le_iff_toNat_le.2 (Nat.le_of_lt_succ i.toNat_lt)
    rw [collect, if_pos hwithin]
    split
    · rintro ⟨⟩
    · exact ih _ _

section
variable (h : segments.Complete total)
include h

theorem Segments.Complete.ofNat (hpos : 1 ≤ n)
    (hn : n ≤ total.toNat) : (segments (UInt8.ofNat n)).isSome := by
  have hvalue : (UInt8.ofNat n).toNat = n := toNat_ofNat (Nat.lt_of_le_of_lt hn total.toNat_lt)
  apply h
  · rw [UInt8.le_iff_toNat_le, hvalue]
    exact hpos
  · rw [UInt8.le_iff_toNat_le, hvalue]
    exact hn

theorem Segments.Complete.le_size : total.toNat ≤ segments.size := by
  have hsub : Finset.Icc 1 total.toNat ⊆
      (Finset.range 256).filter fun n => (segments (UInt8.ofNat n)).isSome := by
    intro n hn
    obtain ⟨hpos, hle⟩ := Finset.mem_Icc.1 hn
    exact Finset.mem_filter.2
      ⟨Finset.mem_range.2 (Nat.lt_of_le_of_lt hle total.toNat_lt), h.ofNat hpos hle⟩
  have hcard := Finset.card_le_card hsub
  rwa [Nat.card_Icc, Nat.add_sub_cancel] at hcard

theorem Segments.Complete.assemble_eq (htotal : total ≠ 0)
    (fuel : Nat) : assemble fuel segments total =
      (collect segments total fuel 1 []).map fun found => found.map fun body =>
        { (segments total).getD ⟨0, [], 0, 0, 0⟩ with body := body, seq := total.toNat } :=
  if_neg (not_or.2 ⟨htotal, Nat.not_lt.2 h.le_size⟩)

end

theorem Segments.Complete.not_assembled (h : segments.Complete 255) : ¬ Assembled segments 255 := by
  rintro ⟨fuel, result, hresult, hsome, -⟩
  obtain ⟨reply, rfl⟩ := isSome_iff_exists.1 (hsome.2 h)
  rw [h.assemble_eq (by decide)] at hresult
  obtain ⟨found, hfound, hreply⟩ := map_eq_some_iff.1 hresult
  obtain ⟨body, rfl, -⟩ := map_eq_some_iff.1 hreply
  exact collect_top fuel 1 [] body hfound

/-- A reply is assembled as it should be unless all of 255 segments are there. -/
theorem assembled_iff (htotal : total ≠ 0) :
    Assembled segments total ↔ ¬ (total = 255 ∧ segments.Complete total) := by
  constructor
  · rintro hassembled ⟨rfl, hcomplete⟩
    exact hcomplete.not_assembled hassembled
  · intro htop
    by_cases hcomplete : segments.Complete total
    · have hlt : total.toNat < 255 := by
        have hne : total.toNat ≠ 255 := fun h => htop ⟨UInt8.toNat_inj.1 h, hcomplete⟩
        have hbound := total.toNat_lt
        omega
      have hpos : 1 ≤ total := by
        have hne : total.toNat ≠ 0 := fun h => htotal (UInt8.toNat_inj.1 h)
        rw [UInt8.le_iff_toNat_le, UInt8.toNat_one]
        omega
      obtain ⟨last, hlast⟩ := isSome_iff_exists.1 (hcomplete total hpos UInt8.le_rfl)
      have hcollect := collect_of_complete hlt total.toNat 1 (Nat.add_comm _ _) (fun j hj => by
          rw [mem_range'_1] at hj
          exact hcomplete.ofNat hj.1 (by omega)) (Nat.lt_succ_self _) []
      have hresult := hcomplete.assemble_eq htotal (total.toNat + 1)
      rw [show (1 : UInt8) = UInt8.ofNat 1 from rfl, hcollect, hlast] at hresult
      refine ⟨_, _, hresult, ⟨fun _ => hcomplete, fun _ => rfl⟩, ?_⟩
      rintro reply ⟨⟩
      exact ⟨rfl, congrArg _ hlast⟩
    · have hmissing : assemble 256 segments total = some none := by
        by_cases hsize : total = 0 ∨ segments.size < total.toNat
        · exact if_pos hsize
        · simp only [Segments.Complete, not_forall, not_isSome_iff_eq_none] at hcomplete
          obtain ⟨j, hpos, hle, hj⟩ := hcomplete
          have hfuel : j.toNat - (1 : UInt8).toNat < 256 := by
            have hbound := j.toNat_lt
            omega
          rw [assemble, if_neg hsize, collect_of_missing hj hle hpos hfuel]
          rfl
      exact ⟨256, none, hmissing, ⟨nofun, fun h => absurd h hcomplete⟩, nofun⟩

def twoSegments : Segments := fun i =>
  if i = 2 then some ⟨0, [3], 7, 2, 2⟩ else if i = 1 then some ⟨9, [1, 2], 7, 1, 2⟩
  else if i = 200 then some ⟨0, [5], 7, 200, 2⟩ else none

theorem assembled_two : Assembled twoSegments 2 :=
  (assembled_iff (by decide)).2 fun h => absurd h.1 (by decide)

def allSegments : Segments := fun i => if i = 0 then none else some ⟨0, [i], 7, i.toNat, 255⟩

/-- A reply of 255 segments is not returned when the last of them has come. -/
theorem whole_reply_refused : allSegments.Complete 255 ∧ ¬ Assembled allSegments 255 := by
  have hcomplete : allSegments.Complete 255 := by
    intro i hi _
    have hne : i ≠ 0 := by
      rintro rfl
      exact absurd hi (by decide)
    rw [allSegments, if_neg hne]
    rfl
  exact ⟨hcomplete, hcomplete.not_assembled⟩

end MeshsatHub.Oob
