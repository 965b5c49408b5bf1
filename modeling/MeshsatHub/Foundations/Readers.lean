import Mathlib.Data.List.Basic

/-!
# Reading values off the front of a list

A reader takes what it needs off the front of a list and leaves the rest, or fails. What a reader
reads back from an encoding, `times` reads back from the encodings in a row.
-/

namespace MeshsatHub.Readers
open List
variable {ε α β γ : Type*}

abbrev Reader (ε α β : Type*) := List α → Except ε (β × List α)

/-- The next `n` elements. -/
def need (e : ε) (n : Nat) : Reader ε α (List α) := fun xs =>
  if xs.length < n then .error e else .ok (xs.take n, xs.drop n)

/-- The value read goes through a function. -/
def Reader.map (p : Reader ε α β) (f : β → γ) : Reader ε α γ := fun xs =>
  match p xs with
  | .ok (x, rest) => .ok (f x, rest)
  | .error e => .error e

/-- What is read next depends on the value read. -/
def Reader.andThen (p : Reader ε α β) (f : β → Reader ε α γ) : Reader ε α γ := fun xs =>
  match p xs with
  | .ok (x, rest) => f x rest
  | .error e => .error e

/-- Two values. -/
def both (p : Reader ε α β) : Reader ε α (β × β) :=
  p.andThen fun x => p.map fun y => (x, y)

/-- So many values. -/
def times (p : Reader ε α β) : Nat → Reader ε α (List β)
  | 0 => fun xs => .ok ([], xs)
  | n + 1 => p.andThen fun x => (times p n).map fun ys => x :: ys

variable {p : Reader ε α β} {xs rest front : List α} {e : ε} {f : β → Reader ε α γ} {n : Nat}
  {ys : List β} {x y : β}

theorem map_of_ok {f : β → γ} (h : p xs = .ok (x, rest)) : p.map f xs = .ok (f x, rest) := by
  rw [Reader.map, h]

theorem andThen_of_ok (h : p xs = .ok (x, rest)) : p.andThen f xs = f x rest := by
  rw [Reader.andThen, h]

theorem of_map_ok {f : β → γ} {y : γ} (h : p.map f xs = .ok (y, rest)) :
    ∃ x, p xs = .ok (x, rest) ∧ f x = y := by
  unfold Reader.map at h
  split at h
  next x rest' hx =>
    cases h
    exact ⟨x, hx, rfl⟩
  next => cases h

theorem of_andThen_ok {y : γ} (h : p.andThen f xs = .ok (y, rest)) :
    ∃ x mid, p xs = .ok (x, mid) ∧ f x mid = .ok (y, rest) := by
  unfold Reader.andThen at h
  split at h
  next x mid hx => exact ⟨x, mid, hx, h⟩
  next => cases h

theorem need_append (h : front.length = n) : need e n (front ++ rest) = .ok (front, rest) := by
  have hlen : ¬(front ++ rest).length < n := by
    rw [length_append]
    omega
  rw [need, if_neg hlen, take_left' h, drop_left' h]

theorem of_need_ok (h : need e n xs = .ok (front, rest)) :
    xs = front ++ rest ∧ front.length = n := by
  unfold need at h
  split at h
  · cases h
  · next hlen =>
    cases h
    refine ⟨(take_append_drop n xs).symm, ?_⟩
    rw [length_take]
    omega

theorem of_both_ok (h : both p xs = .ok ((x, y), rest)) :
    ∃ mid, p xs = .ok (x, mid) ∧ p mid = .ok (y, rest) := by
  obtain ⟨x', mid, hx, hmap⟩ := of_andThen_ok h
  obtain ⟨y', hy, heq⟩ := of_map_ok hmap
  cases heq
  exact ⟨mid, hx, hy⟩

/-- What holds of everything a reader reads holds of all the values it reads in a row. -/
theorem of_times_ok {P : β → Prop} (hp : ∀ xs x rest, p xs = .ok (x, rest) → P x)
    (h : times p n xs = .ok (ys, rest)) : ys.length = n ∧ ∀ y ∈ ys, P y := by
  induction n generalizing xs ys with
  | zero =>
    cases h
    exact ⟨rfl, nofun⟩
  | succ n ih =>
    obtain ⟨x, mid, hx, hmap⟩ := of_andThen_ok h
    obtain ⟨ys', hys, rfl⟩ := of_map_ok hmap
    obtain ⟨hlen, hall⟩ := ih hys
    refine ⟨by rw [length_cons, hlen], ?_⟩
    rintro y (- | hy)
    · exact hp _ _ _ hx
    · exact hall _ ‹_›

variable {q : Reader ε α β} {bound : Nat}

/-- A reader takes a front off, and takes it off whatever follows. -/
def Cuts (p : Reader ε α β) : Prop :=
  ∀ xs x rest, p xs = .ok (x, rest) →
    ∃ front, xs = front ++ rest ∧ ∀ more, p (front ++ more) = .ok (x, more)

theorem Cuts.length_le (h : Cuts p) (hx : p xs = .ok (x, rest)) : rest.length ≤ xs.length := by
  obtain ⟨front, rfl, -⟩ := h xs x rest hx
  rw [length_append]
  exact Nat.le_add_left ..

theorem cuts_return (x : β) : Cuts (fun xs => .ok (x, xs) : Reader ε α β) := by
  intro xs y rest h
  cases h
  exact ⟨[], rfl, fun more => rfl⟩

theorem cuts_error (e : ε) : Cuts (fun _ => .error e : Reader ε α β) := nofun

theorem cuts_need (n : Nat) : Cuts (need e n : Reader ε α (List α)) := by
  intro xs front rest h
  obtain ⟨hxs, hlen⟩ := of_need_ok h
  exact ⟨front, hxs, fun more => need_append hlen⟩

theorem Cuts.map (h : Cuts p) (f : β → γ) : Cuts (p.map f) := by
  intro xs y rest hy
  obtain ⟨x, hx, rfl⟩ := of_map_ok hy
  obtain ⟨front, hxs, hmore⟩ := h xs x rest hx
  exact ⟨front, hxs, fun more => map_of_ok (hmore more)⟩

theorem Cuts.andThen (h : Cuts p) (hf : ∀ x, Cuts (f x)) : Cuts (p.andThen f) := by
  intro xs y rest hy
  obtain ⟨x, mid, hx, hmid⟩ := of_andThen_ok hy
  obtain ⟨front, rfl, hfront⟩ := h xs x mid hx
  obtain ⟨next, rfl, hnext⟩ := hf x mid y rest hmid
  refine ⟨front ++ next, (append_assoc ..).symm, fun more => ?_⟩
  rw [append_assoc, andThen_of_ok (hfront _), hnext]

theorem Cuts.both (h : Cuts p) : Cuts (both p) := h.andThen fun x => h.map fun y => (x, y)

theorem Cuts.times (h : Cuts p) (n : Nat) : Cuts (times p n) := by
  induction n with
  | zero => exact cuts_return []
  | succ n ih => exact h.andThen fun x => ih.map fun ys => x :: ys

def AgreeUpTo (bound : Nat) (p q : Reader ε α β) : Prop :=
  ∀ xs : List α, xs.length ≤ bound → p xs = q xs

section
variable (h : AgreeUpTo bound p q)
include h

theorem AgreeUpTo.map (f : β → γ) : AgreeUpTo bound (p.map f) (q.map f) := by
  intro xs hxs
  rw [Reader.map, Reader.map, h xs hxs]

theorem AgreeUpTo.andThen (hp : Cuts p) {g : β → Reader ε α γ}
    (hf : ∀ x, AgreeUpTo bound (f x) (g x)) : AgreeUpTo bound (p.andThen f) (q.andThen g) := by
  intro xs hxs
  rw [Reader.andThen, Reader.andThen, ← h xs hxs]
  cases hx : p xs with
  | error e => rfl
  | ok found => exact hf found.1 found.2 (Nat.le_trans (hp.length_le hx) hxs)

theorem AgreeUpTo.both (hp : Cuts p) : AgreeUpTo bound (both p) (both q) :=
  h.andThen hp fun x => h.map fun y => (x, y)

theorem AgreeUpTo.times (hp : Cuts p) (n : Nat) : AgreeUpTo bound (times p n) (times q n) := by
  induction n with
  | zero => exact fun xs _ => rfl
  | succ n ih => exact h.andThen hp fun x => ih.map fun ys => x :: ys

end

theorem agreeUpTo_self (bound : Nat) (p : Reader ε α β) : AgreeUpTo bound p p := fun _ _ => rfl

variable {δ : Type*} {encode : δ → List α} {decoded : δ → β}

/-- What is read back one by one, up to a length, is read back in a row. -/
theorem times_flatMap {ds : List δ} (h : ∀ d ∈ ds, ∀ rest, (encode d ++ rest).length ≤ bound →
      p (encode d ++ rest) = .ok (decoded d, rest))
    (rest : List α) (hbound : (ds.flatMap encode ++ rest).length ≤ bound) :
    times p ds.length (ds.flatMap encode ++ rest) = .ok (ds.map decoded, rest) := by
  induction ds with
  | nil => rfl
  | cons d ds ih =>
    rw [flatMap_cons, append_assoc] at hbound ⊢
    have hfirst := h d mem_cons_self _ hbound
    have hrest : times p ds.length (ds.flatMap encode ++ rest) = .ok (ds.map decoded, rest) := by
      apply ih (fun d' hd' => h d' (mem_cons_of_mem d hd'))
      rw [length_append] at hbound
      omega
    rw [length_cons, times, andThen_of_ok hfirst, map_of_ok hrest, map_cons]

/-- So many values are read as the first of them and then the others. -/
theorem of_times_add_ok {k : Nat} (h : times p (k + n) xs = .ok (ys, rest)) :
    ∃ mid, times p k xs = .ok (ys.take k, mid) ∧ times p n mid = .ok (ys.drop k, rest) := by
  induction k generalizing xs ys with
  | zero =>
    rw [Nat.zero_add] at h
    exact ⟨xs, rfl, h⟩
  | succ k ih =>
    rw [Nat.succ_add] at h
    obtain ⟨x, mid, hx, hmap⟩ := of_andThen_ok h
    obtain ⟨ys', hys, rfl⟩ := of_map_ok hmap
    obtain ⟨mid', hfirst, hothers⟩ := ih hys
    exact ⟨mid', (andThen_of_ok hx).trans (map_of_ok hfirst), hothers⟩

theorem times_add {k : Nat} {mid : List α} {zs : List β} (hfirst : times p k xs = .ok (ys, mid))
    (hothers : times p n mid = .ok (zs, rest)) : times p (k + n) xs = .ok (ys ++ zs, rest) := by
  induction k generalizing xs ys with
  | zero =>
    cases hfirst
    rw [Nat.zero_add]
    exact hothers
  | succ k ih =>
    obtain ⟨x, mid', hx, hmap⟩ := of_andThen_ok hfirst
    obtain ⟨ys', hys, rfl⟩ := of_map_ok hmap
    rw [Nat.succ_add]
    exact (andThen_of_ok hx).trans (map_of_ok (ih hys))

/-- Two values in a row are read back. -/
theorem both_append {back : List α} (hfirst : p (front ++ (back ++ rest)) = .ok (x, back ++ rest))
    (hsecond : p (back ++ rest) = .ok (y, rest)) :
    both p (front ++ back ++ rest) = .ok ((x, y), rest) := by
  rw [append_assoc, both, andThen_of_ok hfirst, map_of_ok hsecond]

end MeshsatHub.Readers
