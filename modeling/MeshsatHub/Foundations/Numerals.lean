import Mathlib.Algebra.Group.Nat.Defs
import Mathlib.Data.List.Basic
import Mathlib.Data.Nat.Log

/-!
# Numbers written out

Numerals of a fixed width and of the least width in any base, over any alphabet, and texts that
frame a list of fields by writing each one's length in front of it. What is written can be read
back.
-/

namespace MeshsatHub.Numerals
open List

/-- What holds of the 256 values holds of every byte. -/
theorem forall_byte {p : UInt8 → Prop} (h : ∀ i : Fin 256, p (UInt8.ofFin i)) (b : UInt8) : p b :=
  h b.toFin

variable {α : Type*} {b : Nat} {glyph : Nat → α}

/-- The last `w` digits of a number. -/
def fixedWidth (b : Nat) (glyph : Nat → α) : Nat → Nat → List α
  | 0, _ => []
  | w + 1, n => fixedWidth b glyph w (n / b) ++ [glyph (n % b)]

/-- The digits of a number, at least one. -/
def numeral (b : Nat) (glyph : Nat → α) (n : Nat) : List α :=
  fixedWidth b glyph (Nat.log b n + 1) n

@[simp] theorem length_fixedWidth (w n : Nat) : (fixedWidth b glyph w n).length = w := by
  induction w generalizing n with
  | zero => rfl
  | succ w ih => simp [fixedWidth, ih]

theorem mem_fixedWidth (hb : 0 < b) {w n : Nat} {x : α} (h : x ∈ fixedWidth b glyph w n) :
    ∃ i < b, x = glyph i := by
  induction w generalizing n with
  | zero => cases h
  | succ w ih =>
    obtain h | h := mem_append.1 h
    · exact ih h
    · exact ⟨n % b, Nat.mod_lt n hb, mem_singleton.1 h⟩

/-- The glyphs of different digits differ. -/
def Distinct (b : Nat) (glyph : Nat → α) : Prop :=
  ∀ i < b, ∀ j < b, glyph i = glyph j → i = j

theorem fixedWidth_inj (hb : 0 < b) (hglyph : Distinct b glyph) {w n m : Nat} (hn : n < b ^ w)
    (hm : m < b ^ w) (h : fixedWidth b glyph w n = fixedWidth b glyph w m) : n = m := by
  induction w generalizing n m with
  | zero =>
    rw [Nat.pow_zero, Nat.lt_one_iff] at hn hm
    rw [hn, hm]
  | succ w ih =>
    obtain ⟨hfront, hlast⟩ := append_inj' h rfl
    have hdiv : n / b = m / b := by
      apply ih _ _ hfront <;> exact Nat.div_lt_of_lt_mul (by rwa [← Nat.pow_succ'])
    have hmod : n % b = m % b :=
      hglyph _ (Nat.mod_lt n hb) _ (Nat.mod_lt m hb) (singleton_injective hlast)
    rw [← Nat.div_add_mod n b, ← Nat.div_add_mod m b, hdiv, hmod]

theorem numeral_injective (hb : 1 < b) (hglyph : Distinct b glyph) :
    Function.Injective (numeral b glyph) := by
  intro n m h
  have hwidth : Nat.log b n + 1 = Nat.log b m + 1 := by
    simpa [numeral] using congrArg length h
  rw [numeral, numeral, ← hwidth] at h
  apply fixedWidth_inj (Nat.zero_lt_of_lt hb) hglyph _ _ h
  · exact Nat.lt_pow_succ_log_self hb n
  · exact hwidth ▸ Nat.lt_pow_succ_log_self hb m

theorem length_numeral_pos (n : Nat) : 0 < (numeral b glyph n).length := by
  simp [numeral]

/-- A number in `w` bytes, the most significant one first. -/
def bigEndian (w n : Nat) : List UInt8 := fixedWidth 256 UInt8.ofNat w n

def readBigEndian (bytes : List UInt8) : Nat := bytes.foldl (fun n byte => 256 * n + byte.toNat) 0

@[simp] theorem length_bigEndian (w n : Nat) : (bigEndian w n).length = w := length_fixedWidth w n

theorem readBigEndian_snoc (bytes : List UInt8) (byte : UInt8) :
    readBigEndian (bytes ++ [byte]) = 256 * readBigEndian bytes + byte.toNat := by
  simp [readBigEndian]

theorem readBigEndian_bigEndian {w n : Nat} (h : n < 256 ^ w) :
    readBigEndian (bigEndian w n) = n := by
  induction w generalizing n with
  | zero =>
    have hzero : n = 0 := by simpa using h
    rw [hzero]
    rfl
  | succ w ih =>
    have hdiv : n / 256 < 256 ^ w := Nat.div_lt_of_lt_mul (by rwa [Nat.pow_succ'] at h)
    have hsnoc : bigEndian (w + 1) n = bigEndian w (n / 256) ++ [UInt8.ofNat (n % 256)] := rfl
    have hbyte : (UInt8.ofNat (n % 256)).toNat = n % 256 :=
      UInt8.toNat_ofNat_of_lt' (Nat.mod_lt n (by decide))
    rw [hsnoc, readBigEndian_snoc, ih hdiv, hbyte, Nat.div_add_mod]

variable {sep : α} {x x' y y' : List α}

/-- The first separator parts a text. -/
theorem append_cons_inj (hx : sep ∉ x) (hx' : sep ∉ x') (h : x ++ sep :: y = x' ++ sep :: y') :
    x = x' ∧ y = y' := by
  induction x generalizing x' with
  | nil =>
    cases x' with
    | nil => exact ⟨rfl, (cons.inj h).2⟩
    | cons a x' => exact absurd (cons.inj h).1 (fun heq => hx' (by simp [heq]))
  | cons a x ih =>
    cases x' with
    | nil => exact absurd (cons.inj h).1 (fun heq => hx (by simp [heq]))
    | cons a' x' =>
      obtain ⟨rfl, htail⟩ := cons.inj h
      obtain ⟨rfl, rfl⟩ := ih (fun hm => hx (by simp [hm])) (fun hm => hx' (by simp [hm])) htail
      exact ⟨rfl, rfl⟩

variable {stop : α}

def field (b : Nat) (glyph : Nat → α) (sep stop : α) (f : List α) : List α :=
  numeral b glyph f.length ++ sep :: (f ++ [stop])

/-- The fields one after the other. -/
def fields (b : Nat) (glyph : Nat → α) (sep stop : α) (fs : List (List α)) : List α :=
  fs.flatMap (field b glyph sep stop)

theorem length_field (f : List α) : f.length + 3 ≤ (field b glyph sep stop f).length := by
  have hpos : 0 < (numeral b glyph f.length).length := length_numeral_pos f.length
  simp only [field, length_append, length_cons, length_nil]
  omega

/-- A field is told from what follows it. -/
theorem field_append_inj (hb : 1 < b) (hglyph : Distinct b glyph) (hsep : ∀ i < b, glyph i ≠ sep)
    {f f' rest rest' : List α}
    (h : field b glyph sep stop f ++ rest = field b glyph sep stop f' ++ rest') :
    f = f' ∧ rest = rest' := by
  have hnot (n : Nat) : sep ∉ numeral b glyph n := by
    intro hmem
    obtain ⟨i, hi, heq⟩ := mem_fixedWidth (Nat.zero_lt_of_lt hb) hmem
    exact hsep i hi heq.symm
  simp only [field, append_assoc, cons_append] at h
  obtain ⟨hlength, htail⟩ := append_cons_inj (hnot _) (hnot _) h
  obtain ⟨hf, hrest⟩ := append_inj htail (numeral_injective hb hglyph hlength)
  exact ⟨hf, (cons.inj hrest).2⟩

theorem fields_injective (hb : 1 < b) (hglyph : Distinct b glyph) (hsep : ∀ i < b, glyph i ≠ sep) :
    Function.Injective (fields b glyph sep stop) := by
  have hne (f rest : List α) : field b glyph sep stop f ++ rest ≠ [] := by
    intro h
    have hlength : f.length + 3 ≤ (field b glyph sep stop f).length := length_field f
    rw [(append_eq_nil_iff.1 h).1] at hlength
    simp at hlength
  intro fs
  induction fs with intro fs' h
  | nil =>
    cases fs' with
    | nil => rfl
    | cons f' fs' => exact absurd h.symm (hne f' _)
  | cons f fs ih =>
    cases fs' with
    | nil => exact absurd h (hne f _)
    | cons f' fs' =>
      obtain ⟨rfl, hrest⟩ := field_append_inj hb hglyph hsep h
      rw [ih hrest]

end MeshsatHub.Numerals
