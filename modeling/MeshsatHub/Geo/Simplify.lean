import Mathlib

/-!
# Simplified tracks

`simplifyTrack` goes back from the kept points to the stored positions by their coordinates, which
is right exactly if no dropped position is where a kept one is. The distances are a parameter, with
values in any linear order.
-/

namespace MeshsatHub.Geo
open List
variable {P Q D : Type*} [LinearOrder D]

section Points
variable (distance : P → P → P → D)

/-- The loop over the inner points, from the index `i` on: the largest distance and its index. -/
def farthest (first last : P) : List P → Nat → D × Nat → D × Nat
  | [], _, best => best
  | p :: ps, i, best =>
    farthest first last ps (i + 1)
      (if best.1 < distance p first last then (distance p first last, i) else best)

theorem farthest_spec (first last : P) (ps : List P) (i : Nat) (best : D × Nat) :
    best.1 ≤ (farthest distance first last ps i best).1 ∧
      (∀ p ∈ ps, distance p first last ≤ (farthest distance first last ps i best).1) ∧
      (farthest distance first last ps i best = best ∨
        i ≤ (farthest distance first last ps i best).2 ∧
          (farthest distance first last ps i best).2 < i + ps.length) := by
  induction ps generalizing i best with
  | nil => exact ⟨le_refl _, nofun, .inl rfl⟩
  | cons p ps ih =>
    obtain ⟨hbest, hall, hindex⟩ :=
      ih (i + 1) (if best.1 < distance p first last then (distance p first last, i) else best)
    rw [farthest, length_cons]
    split at hbest
    · next hlt =>
      rw [if_pos hlt] at hall hindex ⊢
      refine ⟨le_trans (le_of_lt hlt) hbest, forall_mem_cons.2 ⟨hbest, hall⟩, .inr ?_⟩
      obtain heq | hindex := hindex
      · rw [heq]
        omega
      · omega
    · next hle =>
      rw [if_neg hle] at hall hindex ⊢
      refine ⟨hbest, forall_mem_cons.2 ⟨le_trans (not_lt.1 hle) hbest, hall⟩, ?_⟩
      exact hindex.imp_right fun hindex => ⟨by omega, by omega⟩

variable [Zero D] (ε : { x : D // 0 ≤ x }) {points : List P}

/-- The inner point that is farthest from the line through the ends. -/
def split (points : List P) (h : ¬points.length ≤ 2) : D × Nat :=
  farthest distance (points.head (by grind)) (points.getLast (by grind)) points.tail.dropLast 1
    (0, 0)

theorem split_inner {h : ¬points.length ≤ 2} (hfar : ε < (split distance points h).1) :
    1 ≤ (split distance points h).2 ∧ (split distance points h).2 + 1 < points.length := by
  obtain ⟨-, -, heq | hindex⟩ := farthest_spec distance (points.head (by grind))
    (points.getLast (by grind)) points.tail.dropLast 1 (0, 0)
  · rw [split, heq] at hfar
    exact absurd ε.2 (not_le.2 hfar)
  · rw [length_dropLast, length_tail] at hindex
    unfold split
    omega

def douglasPeucker (points : List P) : List P :=
  if h : points.length ≤ 2 then points
  else if hfar : ε < (split distance points h).1 then
    (douglasPeucker (points.take ((split distance points h).2 + 1))).dropLast ++
      douglasPeucker (points.drop (split distance points h).2)
  else [points.head (by grind), points.getLast (by grind)]
termination_by points.length
decreasing_by
  all_goals
    have hinner := split_inner distance ε hfar
    simp only [length_take, length_drop]
    omega

/-- The points that Douglas and Peucker keep. -/
def simplify (points : List P) : List P :=
  if points.length ≤ 2 then points else douglasPeucker distance ε points

/-- The kept points of a track. What is dropped between two of them is within `ε` of their line. -/
inductive Around : List P → List P → Prop where
  | nil : Around [] []
  | last (p : P) : Around [p] [p]
  | next (p q : P) (dropped points kept : List P) (hdropped : ∀ d ∈ dropped, distance d p q ≤ ε)
      (hrest : Around (q :: points) (q :: kept)) :
      Around (p :: (dropped ++ q :: points)) (p :: q :: kept)

variable {distance ε} {kept : List P}

theorem Around.ends (h : Around distance ε points kept) :
    kept <+ points ∧ kept.head? = points.head? ∧ kept.getLast? = points.getLast? := by
  induction h with
  | nil | last p => simp
  | next p q dropped points kept _ _ ih =>
    obtain ⟨hsub, -, hlast⟩ := ih
    refine ⟨(hsub.trans (sublist_append_right _ _)).cons_cons p, rfl, ?_⟩
    rw [getLast?_cons_cons, hlast]
    simp [getLast?_cons, getLast?_append]

theorem Around.append {front : List P} {m : P} {back kept' : List P}
    (h : Around distance ε points kept) (hpoints : points = front ++ [m])
    (h' : Around distance ε (m :: back) kept') :
    Around distance ε (front ++ m :: back) (kept.dropLast ++ kept') := by
  induction h generalizing front with
  | nil => simp at hpoints
  | last p =>
    obtain ⟨rfl, rfl⟩ : front = [] ∧ p = m := by
      simpa [eq_comm, append_eq_singleton_iff] using hpoints
    exact h'
  | next p q dropped points kept hdropped _ ih =>
    obtain ⟨front', z, hrest⟩ := (eq_nil_or_concat' (q :: points)).resolve_left nofun
    rw [hrest, ← append_assoc, ← cons_append] at hpoints
    obtain ⟨rfl, hm⟩ := append_inj' hpoints rfl
    cases hm
    have hjoined := ih hrest
    obtain ⟨back', hback⟩ : ∃ back', front' ++ m :: back = q :: back' := by
      cases front' <;> cases hrest <;> exact ⟨_, rfl⟩
    rw [hback] at hjoined
    obtain ⟨rest, hkept⟩ := head?_eq_some_iff.1 hjoined.ends.2.1
    rw [hkept] at hjoined
    rw [dropLast_cons_cons, cons_append, cons_append, append_assoc, hback, hkept]
    exact .next p q dropped back' rest hdropped hjoined

theorem around_douglasPeucker (points : List P) :
    Around distance ε points (douglasPeucker distance ε points) := by
  induction points using douglasPeucker.induct distance ε with
  | case1 points h =>
    rw [douglasPeucker, dif_pos h]
    match points with
    | [] => exact .nil
    | [p] => exact .last p
    | [p, q] => exact .next p q [] [] [] nofun (.last q)
  | case2 points h hfar hleft hright =>
    rw [douglasPeucker, dif_neg h, dif_pos hfar]
    have hlt : (split distance points h).2 < points.length := by
      have hinner := split_inner distance ε hfar
      omega
    rw [drop_eq_getElem_cons hlt] at hright
    have hjoined := hleft.append (take_succ_eq_append_getElem hlt) hright
    rwa [← drop_eq_getElem_cons hlt, take_append_drop] at hjoined
  | case3 points h hnear =>
    rw [douglasPeucker, dif_neg h, dif_neg hnear]
    have hpoints : points = points.head (by grind) ::
        (points.tail.dropLast ++ [points.getLast (by grind)]) := by
      have htail : points.tail ≠ [] := by
        rw [← length_pos_iff, length_tail]
        omega
      rw [← getLast_tail htail, dropLast_append_getLast, cons_head_tail]
    have hdropped : ∀ d ∈ points.tail.dropLast,
        distance d (points.head (by grind)) (points.getLast (by grind)) ≤ ε :=
      fun d hd => le_trans ((farthest_spec distance _ _ _ 1 (0, 0)).2.1 d hd) (not_lt.1 hnear)
    have hends := Around.next _ _ _ [] [] hdropped (.last _)
    rwa [← hpoints] at hends

theorem around_simplify (points : List P) :
    Around distance ε points (simplify distance ε points) := by
  have haround : Around distance ε points (douglasPeucker distance ε points) :=
    around_douglasPeucker points
  unfold simplify
  split
  · next h => rwa [douglasPeucker, dif_pos h] at haround
  · exact haround

end Points

section Positions
variable (distance : Q → Q → Q → D) (f : P → Q)

theorem farthest_map (first last : P) (ps : List P) (i : Nat) (best : D × Nat) :
    farthest distance (f first) (f last) (ps.map f) i best =
      farthest (fun p q r => distance (f p) (f q) (f r)) first last ps i best := by
  induction ps generalizing i best with
  | nil => rfl
  | cons p ps ih =>
    rw [map_cons, farthest, farthest]
    exact ih (i + 1) _

variable [Zero D] (ε : { x : D // 0 ≤ x })

theorem split_map (points : List P) (h : ¬(points.map f).length ≤ 2) :
    split distance (points.map f) h =
      split (fun p q r => distance (f p) (f q) (f r)) points (by simpa using h) := by
  simp only [split, head_map, getLast_map, ← map_tail, ← map_dropLast, farthest_map]

theorem douglasPeucker_map (points : List P) : douglasPeucker distance ε (points.map f) =
      (douglasPeucker (fun p q r => distance (f p) (f q) (f r)) ε points).map f := by
  induction points using douglasPeucker.induct (fun p q r => distance (f p) (f q) (f r)) ε with
  | case1 points h => rw [douglasPeucker, dif_pos (by simpa using h), douglasPeucker, dif_pos h]
  | case2 points h hfar hleft hright =>
    have hlong : ¬(points.map f).length ≤ 2 := by simpa using h
    rw [douglasPeucker, dif_neg hlong, dif_pos (by rwa [split_map])]
    rw [split_map, ← map_take, ← map_drop, hleft, hright, douglasPeucker.eq_def _ _ points,
      dif_neg h, dif_pos hfar, map_append, map_dropLast]
  | case3 points h hnear =>
    have hlong : ¬(points.map f).length ≤ 2 := by simpa using h
    rw [douglasPeucker, dif_neg hlong, dif_neg (by rwa [split_map])]
    rw [douglasPeucker, dif_neg h, dif_neg hnear, head_map, getLast_map]
    rfl

theorem simplify_map (points : List P) : simplify distance ε (points.map f) =
      (simplify (fun p q r => distance (f p) (f q) (f r)) ε points).map f := by
  rw [simplify, simplify, length_map, douglasPeucker_map]
  split <;> rfl

/-- The points at the places of the kept ones are the kept ones exactly if no other is there. -/
theorem filter_mem_map_eq_iff [DecidableEq Q] (h : kept <+ points) (hnodup : points.Nodup) :
    points.filter (fun p => f p ∈ kept.map f) = kept ↔
      ∀ p ∈ points, f p ∈ kept.map f → p ∈ kept := by
  constructor
  · intro heq p hp hplace
    rw [← heq]
    exact mem_filter.2 ⟨hp, decide_eq_true hplace⟩
  · intro hkept
    have hsub : kept <+ points.filter fun p => f p ∈ kept.map f := by
      have hall : kept.filter (fun p => f p ∈ kept.map f) = kept :=
        filter_eq_self.2 fun p hp => decide_eq_true (mem_map_of_mem hp)
      have hfilter := h.filter fun p => f p ∈ kept.map f
      rwa [hall] at hfilter
    refine (hsub.eq_of_length_le ?_).symm
    refine ((hnodup.filter _).subperm fun p hp => ?_).length_le
    obtain ⟨hp, hplace⟩ := mem_filter.1 hp
    exact hkept p hp (of_decide_eq_true hplace)

end Positions

structure Point (F : Type*) where
  lat : F
  lon : F
  deriving DecidableEq

structure Position (F : Type*) where
  id : Nat
  lat : F
  lon : F

def Position.point {F : Type*} (p : Position F) : Point F := ⟨p.lat, p.lon⟩

section Tracks
variable {F : Type*} [DecidableEq F] [Zero D] (distance : Point F → Point F → Point F → D)
  (ε : { x : D // 0 ≤ x }) (positions : List (Position F))

/-- The positions come newest first. -/
def simplifyTrack : List (Position F) :=
  let simplified := simplify distance ε (positions.map Position.point).reverse
  positions.filter fun p => p.point ∈ simplified

def keptPositions : List (Position F) :=
  (simplify (fun p q r => distance p.point q.point r.point) ε positions.reverse).reverse

/-- A simplified track is made of its kept points, and the positions returned are those of the kept
points exactly if no dropped position is at the place of a kept one. -/
theorem track_simplified (hids : (positions.map Position.id).Nodup) :
    (∀ points, let kept := simplify distance ε points
      Around distance ε points kept ∧ kept <+ points ∧ kept.head? = points.head? ∧
        kept.getLast? = points.getLast?) ∧
      (simplifyTrack distance ε positions = keptPositions distance ε positions ↔
        ∀ p ∈ positions, p.point ∈ (keptPositions distance ε positions).map Position.point →
          p ∈ keptPositions distance ε positions) := by
  constructor
  · intro points
    exact ⟨around_simplify points, (around_simplify points).ends⟩
  · have hkept : keptPositions distance ε positions <+ positions := by
      rw [← reverse_sublist, keptPositions, reverse_reverse]
      exact (around_simplify positions.reverse).ends.1
    have htrack : simplifyTrack distance ε positions = positions.filter fun p =>
        p.point ∈ (keptPositions distance ε positions).map Position.point := by
      rw [simplifyTrack, ← map_reverse, simplify_map, keptPositions]
      simp only [map_reverse, mem_reverse]
    rw [htrack]
    exact filter_mem_map_eq_iff Position.point hkept hids.of_map

end Tracks

/-- A device that stands still and then moves, newest first. -/
def standing : List (Position Nat) := [⟨3, 1, 1⟩, ⟨2, 0, 0⟩, ⟨1, 0, 0⟩]

def straight (_ _ _ : Point Nat) : Nat := 0

/-- A device that is back where it was, newest first. -/
def returning : List (Position Nat) := [⟨4, 0, 0⟩, ⟨3, 2, 0⟩, ⟨2, 1, 5⟩, ⟨1, 0, 0⟩]

/-- Both positions at the place it comes back to are kept, and one on the way back is dropped. -/
theorem track_simplified_returning :
    (simplifyTrack (fun p _ _ => p.lon) ⟨0, le_refl 0⟩ returning).map (·.id) = [4, 2, 1] := by
  have hkept : keptPositions (fun p _ _ => p.lon) ⟨0, le_refl 0⟩ returning =
      [⟨4, 0, 0⟩, ⟨2, 1, 5⟩, ⟨1, 0, 0⟩] := by
    simp [keptPositions, simplify, douglasPeucker, split, farthest, returning, Position.point]
  rw [((track_simplified (fun p _ _ => p.lon) ⟨0, le_refl 0⟩ returning (by decide)).2).2, hkept]
  · rfl
  · rw [hkept]
    simp [returning, Position.point]

/-- The second position is dropped, and comes back with the coordinates of the first. -/
theorem dropped_position_returned :
    (keptPositions straight ⟨0, le_refl 0⟩ standing).map (·.id) = [3, 1] ∧
      (simplifyTrack straight ⟨0, le_refl 0⟩ standing).map (·.id) = [3, 2, 1] := by
  simp [simplifyTrack, keptPositions, simplify, douglasPeucker, split, farthest, standing, straight,
    Position.point]

end MeshsatHub.Geo
