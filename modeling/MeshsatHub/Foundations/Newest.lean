import Mathlib

/-!
# The newest of a collection of stamped words

Words are ordered by their stamp, and one stamp tells one thing. `newest` depends on which stamps
there are and not on their order or number.
-/

namespace MeshsatHub.Newest
open List Option
variable {T V : Type*}

@[ext]
structure Word (T V : Type*) where
  value : V
  stamp : T
  deriving DecidableEq

variable [LinearOrder T]

def later : Option (Word T V) → Option (Word T V) → Option (Word T V)
  | none, b => b
  | some a, none => some a
  | some a, some b => if a.stamp < b.stamp then some b else some a

@[simp] theorem later_none_left (b : Option (Word T V)) : later none b = b := rfl

theorem later_some_some (a b : Word T V) :
    later (some a) (some b) = if a.stamp < b.stamp then some b else some a := rfl

def word (tells : T → Option V) (t : T) : Option (Word T V) := (tells t).map (⟨·, t⟩)

/-- The word with the greatest stamp among those that say something. -/
def newest (tells : T → Option V) : List T → Option (Word T V)
  | [] => none
  | t :: rest => later (word tells t) (newest tells rest)

structure IsNewest (tells : T → Option V) (ts : List T) (w : Option (Word T V)) : Prop where
  attained : ∀ a, w = some a → a.stamp ∈ ts ∧ tells a.stamp = some a.value
  bound : ∀ t ∈ ts, ∀ v, tells t = some v → ∃ a, w = some a ∧ t ≤ a.stamp

variable {tells : T → Option V} {ts us : List T} {v w : Option (Word T V)}

theorem isNewest_nil : IsNewest tells [] (none : Option (Word T V)) where
  attained := by simp
  bound := by simp

theorem isNewest_word (t : T) : IsNewest tells [t] (word tells t) where
  attained := by
    intro a ha
    obtain ⟨v, hv, rfl⟩ := map_eq_some_iff.1 ha
    exact ⟨by simp, hv⟩
  bound := by
    intro u hu v hv
    obtain rfl := mem_singleton.1 hu
    exact ⟨⟨v, u⟩, by simp [word, hv], le_refl u⟩

/-- Merging two collections takes the later of their newest words. -/
theorem IsNewest.append (hv : IsNewest tells ts v) (hw : IsNewest tells us w) :
    IsNewest tells (ts ++ us) (later v w) := by
  constructor
  · intro a ha
    have hcases : v = some a ∨ w = some a := by
      unfold later at ha
      split at ha
      · exact Or.inr ha
      · exact Or.inl ha
      · split at ha
        · exact Or.inr ha
        · exact Or.inl ha
    obtain h | h := hcases
    · exact ⟨mem_append_left us (hv.attained a h).1, (hv.attained a h).2⟩
    · exact ⟨mem_append_right ts (hw.attained a h).1, (hw.attained a h).2⟩
  · intro t ht x hx
    obtain ht | ht := mem_append.1 ht
    · obtain ⟨a, rfl, hle⟩ := hv.bound t ht x hx
      cases w with
      | none => exact ⟨a, rfl, hle⟩
      | some b =>
        by_cases hlt : a.stamp < b.stamp
        · exact ⟨b, if_pos hlt, hle.trans hlt.le⟩
        · exact ⟨a, if_neg hlt, hle⟩
    · obtain ⟨b, rfl, hle⟩ := hw.bound t ht x hx
      cases v with
      | none => exact ⟨b, rfl, hle⟩
      | some a =>
        by_cases hlt : a.stamp < b.stamp
        · exact ⟨b, if_pos hlt, hle⟩
        · exact ⟨a, if_neg hlt, hle.trans (not_lt.1 hlt)⟩

theorem newest_isNewest (tells : T → Option V) (ts : List T) :
    IsNewest tells ts (newest tells ts) := by
  induction ts with
  | nil => exact isNewest_nil
  | cons t rest ih => exact (isNewest_word t).append ih

/-- A collection has one newest word. -/
theorem IsNewest.unique (hv : IsNewest tells ts v) (hw : IsNewest tells ts w) : v = w := by
  cases v with
  | none =>
    cases w with
    | none => rfl
    | some b =>
      obtain ⟨hmem, htells⟩ := hw.attained b rfl
      obtain ⟨a, ha, _⟩ := hv.bound b.stamp hmem b.value htells
      exact absurd ha (by simp)
  | some a =>
    obtain ⟨hmem, htells⟩ := hv.attained a rfl
    obtain ⟨b, rfl, hab⟩ := hw.bound a.stamp hmem a.value htells
    obtain ⟨hmem', htells'⟩ := hw.attained b rfl
    obtain ⟨c, hc, hbc⟩ := hv.bound b.stamp hmem' b.value htells'
    cases hc
    have hstamp : a.stamp = b.stamp := le_antisymm hab hbc
    rw [hstamp, htells', some.injEq] at htells
    exact congrArg some (Word.ext htells.symm hstamp)

theorem IsNewest.eq_newest (h : IsNewest tells ts w) : w = newest tells ts :=
  h.unique (newest_isNewest tells ts)

/-- Only which stamps there are matters. -/
theorem newest_congr (h : ∀ t, t ∈ ts ↔ t ∈ us) : newest tells ts = newest tells us := by
  apply IsNewest.eq_newest
  obtain ⟨hattained, hbound⟩ := newest_isNewest tells ts
  exact ⟨fun a ha => ⟨(h _).1 (hattained a ha).1, (hattained a ha).2⟩,
    fun t ht => hbound t ((h t).2 ht)⟩

theorem newest_append (tells : T → Option V) (ts us : List T) :
    newest tells (ts ++ us) = later (newest tells ts) (newest tells us) :=
  (((newest_isNewest tells ts).append (newest_isNewest tells us)).eq_newest).symm

theorem newest_singleton (tells : T → Option V) (t : T) : newest tells [t] = word tells t :=
  (isNewest_word t).eq_newest.symm

theorem newest_tells {a : Word T V} (h : newest tells ts = some a) :
    a.stamp ∈ ts ∧ tells a.stamp = some a.value :=
  (newest_isNewest tells ts).attained a h

theorem newest_bound {t : T} (ht : t ∈ ts) {x : V} (hx : tells t = some x) :
    ∃ a, newest tells ts = some a ∧ t ≤ a.stamp :=
  (newest_isNewest tells ts).bound t ht x hx

/-- Replacing on an equal stamp, as a conditional write does, is the same: one
stamp tells one thing. -/
theorem later_eq_of_le {a b : Word T V} (ha : newest tells ts = some a)
    (hb : newest tells us = some b) :
    (if a.stamp ≤ b.stamp then some b else some a) = later (some a) (some b) := by
  simp only [later]
  obtain hlt | heq | hgt := lt_trichotomy a.stamp b.stamp
  · rw [if_pos hlt.le, if_pos hlt]
  · have hvalue := (newest_tells ha).2
    rw [heq, (newest_tells hb).2, some.injEq] at hvalue
    rw [if_pos heq.le, if_neg heq.not_lt]
    exact congrArg some (Word.ext hvalue heq.symm)
  · rw [if_neg hgt.not_ge, if_neg hgt.asymm]

end MeshsatHub.Newest
