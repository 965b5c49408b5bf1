import MeshsatHub.Msgpack.RoundTrip

/-!
# The first elements of an array

The bytes of the first elements of an array, as they came, are read as the same values under the
header of another array and in front of other elements.
-/

namespace MeshsatHub.Msgpack
open Readers List
variable {widen : UInt32 → UInt64} {fuel : Nat} {rest : Bytes}
variable {vs : List Value} {raw : Bytes}

theorem of_value_array {xs : Bytes} (h : value widen fuel xs = .ok (.array vs, rest)) :
    ∃ f header body, fuel = f + 1 ∧ header ≠ [] ∧ xs = header ++ body ∧
      times (value widen f) vs.length body = .ok (vs, rest) := by
  cases fuel with
  | zero => cases xs <;> cases h
  | succ f =>
    cases xs with
    | nil => cases h
    | cons head xs =>
      simp only [value] at h
      cases hhead : headOf head <;> rw [hhead] at h
      case fixarray n =>
        obtain ⟨vs', hvs, heq⟩ := of_map_ok h
        cases heq
        have hlen : vs.length = n := (of_times_ok (fun _ _ _ _ => trivial) hvs).1
        exact ⟨f, [head], xs, rfl, cons_ne_nil _ _, rfl, hlen ▸ hvs⟩
      case array size =>
        obtain ⟨n, mid, hn, hmap⟩ := of_andThen_ok h
        obtain ⟨vs', hvs, heq⟩ := of_map_ok hmap
        cases heq
        have hlen : vs.length = n := (of_times_ok (fun _ _ _ _ => trivial) hvs).1
        obtain ⟨field, rfl, -⟩ := cuts_length size _ _ _ hn
        exact ⟨f, head :: field, mid, rfl, cons_ne_nil _ _, rfl, hlen ▸ hvs⟩
      case bin | str | map =>
        obtain ⟨n, mid, -, hmap⟩ := of_andThen_ok h
        obtain ⟨x, -, heq⟩ := of_map_ok hmap
        cases heq
      case fixstr | fixmap | float32 | float64 | uint | int | fixext | ext =>
        obtain ⟨x, -, heq⟩ := of_map_ok h
        cases heq
      all_goals cases h

theorem times_value_of_le {f f' n : Nat} (hf : raw.length ≤ f) (hf' : raw.length ≤ f') :
    times (value widen f) n raw = times (value widen f') n raw := by
  have hagree : AgreeUpTo raw.length (value widen f) (value widen f') := by
    intro xs hxs
    rw [value_of_le (Nat.le_trans hxs hf), value_of_le (Nat.le_trans hxs hf')]
  exact hagree.times (cuts_value f) n raw (Nat.le_refl _)

theorem times_value_append {f f' n : Nat} (h : times (value widen f) n raw = .ok (vs, []))
    (hf : raw.length ≤ f) (hf' : raw.length ≤ f') (more : Bytes) :
    times (value widen f') n (raw ++ more) = .ok (vs, more) := by
  rw [times_value_of_le hf hf'] at h
  obtain ⟨front, hraw, hmore⟩ := (cuts_value f').times n raw vs [] h
  rw [append_nil] at hraw
  rw [hraw]
  exact hmore more

/-- The encoding of an array whose first elements have these bytes. -/
def packBehind (k : Nat) (raw : Bytes) (tail : List Value) : Bytes :=
  arrayHeader (k + tail.length) ++ (raw ++ packAll tail)

/-- Under a header of its own and in front of any elements, the bytes of the first elements are
read as these. -/
theorem unpackValue_packBehind {f k : Nat} {tail : List Value}
    (hraw : times (value widen f) k raw = .ok (vs, [])) (hf : raw.length ≤ f)
    (htail : ∀ v ∈ tail, Sized v) (hlen : k + tail.length ≤ maxLength) :
    unpackValue widen (packBehind k raw tail) =
      .ok (.array (vs ++ tail.map norm), (packBehind k raw tail).length) := by
  have hheader := length_arrayHeader_pos (k + tail.length)
  obtain ⟨fuel, hfuel⟩ : ∃ fuel, (packBehind k raw tail).length = fuel + 1 := by
    refine ⟨(packBehind k raw tail).length - 1, ?_⟩
    rw [packBehind, length_append]
    omega
  have hbody : (raw ++ packAll tail).length ≤ fuel := by
    rw [packBehind, length_append] at hfuel
    omega
  have hrawLe : raw.length ≤ fuel := by
    rw [length_append] at hbody
    omega
  have htailLe : (tail.flatMap pack ++ []).length ≤ fuel := by
    rw [append_nil, ← packAll_eq]
    rw [length_append] at hbody
    omega
  have hfirst := times_value_append hraw hf hrawLe (packAll tail ++ [])
  have hothers : times (value widen fuel) tail.length (packAll tail ++ []) =
      .ok (tail.map norm, []) := by
    rw [packAll_eq]
    exact times_flatMap (fun v hv rest => value_pack (htail v hv) fuel rest) [] htailLe
  have hall := times_add hfirst hothers
  rw [← append_assoc] at hall
  have hread := value_array hlen hall
  rw [append_nil] at hread
  rw [unpackValue, hfuel]
  rw [packBehind] at hfuel ⊢
  rw [hread]
  rfl

/-- The first elements of an array that is unpacked stand in bytes of their own, which are read
as these elements in front of any others. -/
theorem exists_raw_of_array {b : Bytes} {k n : Nat} (h : unpackValue widen b = .ok (.array vs, n))
    (hk : k ≤ vs.length) : ∃ header raw others, b.take n = header ++ raw ++ others ∧
      ∀ tail, (∀ v ∈ tail, Sized v) → k + tail.length ≤ maxLength →
        unpackValue widen (packBehind k raw tail) =
          .ok (.array (vs.take k ++ tail.map norm), (packBehind k raw tail).length) := by
  unfold unpackValue at h
  split at h
  next v rest hv =>
    cases h
    obtain ⟨f, header, body, hfuel, hheader, rfl, hvs⟩ := of_value_array hv
    obtain ⟨count, hcount⟩ := Nat.exists_eq_add_of_le hk
    rw [hcount] at hvs
    obtain ⟨mid, hfirst, hothers⟩ := of_times_add_ok hvs
    obtain ⟨raw, rfl, hraw⟩ := (cuts_value f).times k _ _ _ hfirst
    obtain ⟨others, rfl, -⟩ := (cuts_value f).times count _ _ _ hothers
    have hwhole := hraw []
    rw [append_nil] at hwhole
    have hle : raw.length ≤ f := by
      have hpos := length_pos_iff.2 hheader
      simp only [length_append] at hfuel
      omega
    refine ⟨header, raw, others, ?_, fun tail htail hlen =>
      unpackValue_packBehind hwhole hle htail hlen⟩
    rw [← append_assoc, ← append_assoc, length_append, Nat.add_sub_cancel, take_left]
  next => cases h

end MeshsatHub.Msgpack
