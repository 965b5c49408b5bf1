import Mathlib.Data.List.Basic

/-!
# Separated strings

`split`, `joinWith` and `replaceChar` are the one-character cases of Go's `strings.Split`,
`strings.Join` and `strings.ReplaceAll`.
-/

namespace MeshsatHub.Strings
open List

/-- The parts of a string between occurrences of `sep`, empty parts included. -/
def split (sep : Char) (s : String) : List String :=
  (s.toList.splitOn sep).map String.ofList

/-- The parts of a list with `sep` between each two of them. -/
def joinWith (sep : String) : List String → String
  | [] => ""
  | [part] => part
  | part :: rest => part ++ sep ++ joinWith sep rest

/-- Every occurrence of `old` becomes `new`. -/
def replaceChar (old new : Char) (s : String) : String :=
  String.ofList (s.toList.map fun c => if c = old then new else c)

/-- White space in the sense of `unicode.IsSpace`. -/
def isSpace (c : Char) : Bool :=
  c.toNat ∈ [0x09, 0x0a, 0x0b, 0x0c, 0x0d, 0x20, 0x85, 0xa0, 0x1680, 0x2028, 0x2029, 0x202f,
    0x205f, 0x3000] || (0x2000 ≤ c.toNat && c.toNat ≤ 0x200a)

/-- `strings.TrimSpace`. -/
def trimSpace (s : String) : String :=
  String.ofList (((s.toList.dropWhile isSpace).reverse.dropWhile isSpace).reverse)

/-- Go has it as `strings.HasPrefix`. -/
def startsWith (s start : String) : Bool := start.toList.isPrefixOf s.toList

/-- Go has it as `strings.HasSuffix`. -/
def endsWith (s tail : String) : Bool := tail.toList.isSuffixOf s.toList

/-- Go has it as `strings.TrimPrefix`. -/
def trimStart (s start : String) : String :=
  if startsWith s start then String.ofList (s.toList.drop start.toList.length) else s

/-- `s` has no occurrence of `c`. -/
def Lacks (c : Char) (s : String) : Prop := c ∉ s.toList

instance (c : Char) (s : String) : Decidable (Lacks c s) :=
  inferInstanceAs (Decidable (c ∉ s.toList))

variable {s tail t : String} {sep : Char}

theorem Lacks.append {c : Char} (hs : Lacks c s) (ht : Lacks c t) : Lacks c (s ++ t) := by
  simp only [Lacks, String.toList_append, mem_append]
  rintro (h | h)
  · exact hs h
  · exact ht h

/-- A string without the separator is its own only part. -/
theorem split_of_lacks (h : Lacks sep s) : split sep s = [s] := by
  rw [split, splitOn_eq_singleton h]
  simp

/-- A separator between two strings splits them into the parts of each. -/
theorem split_append {u : String} (h : t.toList = sep :: u.toList) :
    split sep (s ++ t) = split sep s ++ split sep u := by
  simp only [split, String.toList_append, h, splitOn_append_cons_self, map_append]

theorem endsWith_iff : endsWith s tail ↔ ∃ front : String, s = front ++ tail := by
  rw [endsWith, isSuffixOf_iff_suffix]
  constructor
  · rintro ⟨front, hfront⟩
    refine ⟨String.ofList front, ?_⟩
    rw [← String.toList_inj, String.toList_append, String.toList_ofList, hfront]
  · rintro ⟨front, rfl⟩
    exact ⟨front.toList, String.toList_append.symm⟩

theorem getLast?_split {last : String} (hlast : Lacks sep last)
    (htail : tail.toList = sep :: last.toList) (h : endsWith s tail) :
    (split sep s).getLast? = some last := by
  obtain ⟨front, rfl⟩ := endsWith_iff.1 h
  rw [split_append htail, split_of_lacks hlast, getLast?_concat]

theorem toList_joinWith (sep : Char) (parts : List String) :
    (joinWith (String.singleton sep) parts).toList =
      [sep].intercalate (parts.map String.toList) := by
  induction parts with
  | nil => rfl
  | cons part rest ih =>
    cases rest with
    | nil => simp [joinWith]
    | cons next more =>
      rw [joinWith, String.toList_append, String.toList_append, ih]
      · simp only [map_cons, intercalate_cons_cons, String.toList_singleton]
      · simp

/-- The characters of a string from its parts. -/
theorem intercalate_split (sep : Char) (s : String) :
    [sep].intercalate ((split sep s).map String.toList) = s.toList := by
  have hid : String.toList ∘ String.ofList = id := by
    funext l
    exact String.toList_ofList
  rw [split, map_map, hid, map_id, intercalate_splitOn]

theorem joinWith_split (sep : Char) (s : String) :
    joinWith (String.singleton sep) (split sep s) = s := by
  rw [← String.toList_inj, toList_joinWith, intercalate_split]

private theorem intercalate_append {front back : List (List Char)} (hfront : front ≠ [])
    (hback : back ≠ []) : [sep].intercalate (front ++ back) =
      [sep].intercalate front ++ sep :: [sep].intercalate back := by
  induction front with
  | nil => exact absurd rfl hfront
  | cons part rest ih =>
    cases rest with
    | nil =>
      rw [singleton_append, intercalate_cons_of_ne_nil hback, intercalate_singleton]
      simp
    | cons next more =>
      rw [cons_append, intercalate_cons_of_ne_nil (by simp),
        ih (cons_ne_nil _ _), intercalate_cons_cons]
      simp

theorem endsWith_of_split {front back : List String} (h : split sep s = front ++ back)
    (hfront : front ≠ []) (hback : back ≠ [])
    (htail : tail.toList = sep :: [sep].intercalate (back.map String.toList)) :
    endsWith s tail := by
  have hjoined := (intercalate_split sep s).symm
  rw [h, map_append, intercalate_append (by simpa using hfront) (by simpa using hback),
    ← htail] at hjoined
  rw [endsWith, isSuffixOf_iff_suffix]
  exact ⟨_, hjoined.symm⟩

theorem eq_nil_of_joinWith_lacks {part : String} {rest : List String}
    (h : Lacks sep (joinWith (String.singleton sep) (part :: rest))) : rest = [] := by
  cases rest with
  | nil => rfl
  | cons next more =>
    refine absurd ?_ h
    simp [joinWith]

private theorem splitOn_map_replace (old new : Char) (l : List Char) (h : new ∉ l) :
    (l.map fun c => if c = old then new else c).splitOn new = l.splitOn old := by
  induction l with
  | nil => simp
  | cons c rest ih =>
    have hc : c ≠ new := fun heq => h (by simp [heq])
    have hr : new ∉ rest := fun hm => h (mem_cons_of_mem c hm)
    rw [map_cons, splitOn_cons_eq_if_modifyHead, splitOn_cons_eq_if_modifyHead, ih hr]
    by_cases ho : c = old
    · simp [ho]
    · simp [ho, hc]

/-- Changing the separator to one the string lacks leaves its parts as they are. -/
theorem split_replaceChar {old new : Char} (h : Lacks new s) :
    split new (replaceChar old new s) = split old s := by
  rw [split, replaceChar, String.toList_ofList, splitOn_map_replace old new _ h, split]

end MeshsatHub.Strings
