import Mathlib.Data.List.Basic

/-!
# Slices of a list

A list is cut into slices of one size. `slices` keeps a shorter slice at the end, `pieces` leaves
out what does not fill a slice.
-/

namespace MeshsatHub.Slices
open List
variable {α : Type*}

/-- Cut off a number of slices. -/
def cut (size : Nat) : Nat → List α → List (List α)
  | 0, _ => []
  | n + 1, xs => xs.take size :: cut size n (xs.drop size)

/-- The slices of a list that are full. -/
def pieces (size : Nat) (xs : List α) : List (List α) := cut size (xs.length / size) xs

/-- All slices of a list; the last one may be shorter. -/
def slices (size : Nat) (xs : List α) : List (List α) :=
  cut size ((xs.length + size - 1) / size) xs

variable {size : Nat} {xs slice : List α} {blocks : List (List α)}

theorem length_cut (n : Nat) (xs : List α) : (cut size n xs).length = n := by
  induction n generalizing xs with
  | zero => rfl
  | succ n ih => rw [cut, length_cons, ih]

theorem flatten_cut (n : Nat) (xs : List α) : (cut size n xs).flatten = xs.take (n * size) := by
  induction n generalizing xs with
  | zero => simp [cut]
  | succ n ih => rw [cut, flatten_cons, ih, Nat.succ_mul, Nat.add_comm, take_add]

theorem length_of_mem_cut {n : Nat} (h : n * size ≤ xs.length)
    (hmem : slice ∈ cut size n xs) : slice.length = size := by
  induction n generalizing xs with
  | zero => cases hmem
  | succ n ih =>
    rw [Nat.succ_mul] at h
    obtain rfl | hmem := mem_cons.1 hmem
    · rw [length_take]
      omega
    · refine ih ?_ hmem
      rw [length_drop]
      omega

theorem slices_nil (hsize : 0 < size) : slices size ([] : List α) = [] := by
  have hcount : (0 + size - 1) / size = 0 := Nat.div_eq_of_lt (by omega)
  rw [slices, length_nil, hcount, cut]

theorem slices_of_ne_nil (hsize : 0 < size) (h : xs ≠ []) :
    slices size xs = xs.take size :: slices size (xs.drop size) := by
  have hlength := length_pos_iff.2 h
  rw [slices, slices, length_drop]
  by_cases hle : size ≤ xs.length
  · have hcount : (xs.length + size - 1) / size = (xs.length - size + size - 1) / size + 1 := by
      rw [← Nat.add_div_right _ hsize]
      congr 1
      omega
    rw [hcount, cut]
  · have hone : (xs.length + size - 1) / size = 1 := by
      rw [Nat.div_eq_iff hsize]
      omega
    have hzero : (xs.length - size + size - 1) / size = 0 := Nat.div_eq_of_lt (by omega)
    rw [hone, hzero, cut]
    rfl

/-- Slices are taken in this order: none of nothing, and the first before those of the rest. -/
@[elab_as_elim]
theorem slices_induction {motive : List α → Prop} (hsize : 0 < size) (xs : List α)
    (nil : motive []) (cons : ∀ xs, xs ≠ [] → motive (xs.drop size) → motive xs) : motive xs := by
  induction hn : xs.length using Nat.strongRecOn generalizing xs with
  | ind n ih =>
    by_cases h : xs = []
    · exact h ▸ nil
    · have hlength := length_pos_iff.2 h
      refine cons xs h (ih (xs.drop size).length ?_ _ rfl)
      rw [length_drop]
      omega

theorem flatten_slices (hsize : 0 < size) (xs : List α) : (slices size xs).flatten = xs := by
  induction xs using slices_induction hsize with
  | nil => rw [slices_nil hsize, flatten_nil]
  | cons xs h ih => rw [slices_of_ne_nil hsize h, flatten_cons, ih, take_append_drop]

theorem ne_nil_of_mem_slices (hsize : 0 < size) (h : slice ∈ slices size xs) : slice ≠ [] := by
  induction xs using slices_induction hsize with
  | nil =>
    rw [slices_nil hsize] at h
    cases h
  | cons xs hne ih =>
    rw [slices_of_ne_nil hsize hne, mem_cons] at h
    obtain rfl | h := h
    · rw [ne_eq, take_eq_nil_iff]
      rintro (hzero | hnil)
      · omega
      · exact hne hnil
    · exact ih h

theorem cut_flatten (h : ∀ b ∈ blocks, b.length = size) :
    cut size blocks.length blocks.flatten = blocks := by
  induction blocks with
  | nil => rfl
  | cons b blocks ih =>
    obtain ⟨hb, hblocks⟩ := forall_mem_cons.1 h
    rw [length_cons, cut, flatten_cons, take_left' hb, drop_left' hb, ih hblocks]

theorem pieces_flatten (hsize : 0 < size)
    (h : ∀ b ∈ blocks, b.length = size) : pieces size blocks.flatten = blocks := by
  have hlength : blocks.flatten.length = blocks.length * size := by
    rw [length_flatten, map_eq_replicate_iff.2 h, sum_replicate_nat]
  rw [pieces, hlength, Nat.mul_div_cancel _ hsize, cut_flatten h]

theorem length_pieces (size : Nat) (xs : List α) : (pieces size xs).length = xs.length / size :=
  length_cut _ _

end MeshsatHub.Slices
