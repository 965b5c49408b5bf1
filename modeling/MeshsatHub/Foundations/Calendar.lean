import MeshsatHub.Foundations.Numerals

/-!
# Times as text

The proleptic Gregorian calendar over all days before and after the first of January 1970, and the
text of a time in UTC to the microsecond. The text determines the time.
-/

namespace MeshsatHub.Calendar
open Numerals List

structure Date where
  year : Int
  month : Nat
  day : Nat
  deriving DecidableEq

/-- How often a part fits into a cycle of four parts and a day. -/
def parts (days part : Int) : Int := days / part - days / part / 4

structure Cycles where
  eras : Int
  centuries : Int
  quads : Int
  years : Int
  days : Int

def cycles (days : Int) : Cycles :=
  let inEra := days % 146097
  let centuries := parts inEra 36524
  let inCentury := inEra - 36524 * centuries
  let inQuad := inCentury % 1461
  let years := parts inQuad 365
  ⟨days / 146097, centuries, inCentury / 1461, years, inQuad - 365 * years⟩

def Cycles.year (c : Cycles) : Int := 400 * c.eras + 100 * c.centuries + 4 * c.quads + c.years

def marchMonth (day : Int) : Int := (5 * day + 2) / 153

def civil (days : Int) : Date :=
  let c := cycles (days + 719468)
  let month := marchMonth c.days
  { year := if month < 10 then c.year else c.year + 1
    month := (if month < 10 then month + 3 else month - 9).toNat
    day := (c.days - (153 * month + 2) / 5 + 1).toNat }

def Date.days (d : Date) : Int :=
  let year := if 2 < d.month then d.year else d.year - 1
  let month : Int := if 2 < d.month then d.month - 3 else d.month + 9
  146097 * (year / 400) + 36524 * (year % 400 / 100) + 1461 * (year % 100 / 4) + 365 * (year % 4) +
    ((153 * month + 2) / 5 + d.day - 1) - 719468

/-- The parts of a cycle are in their ranges and make up the day. -/
theorem cycles_spec (days : Int) : (0 ≤ (cycles days).centuries ∧ (cycles days).centuries < 4) ∧
      (0 ≤ (cycles days).quads ∧ (cycles days).quads < 25) ∧
      (0 ≤ (cycles days).years ∧ (cycles days).years < 4) ∧
      (0 ≤ (cycles days).days ∧ (cycles days).days < 366) ∧
      days = 146097 * (cycles days).eras + 36524 * (cycles days).centuries +
        1461 * (cycles days).quads + 365 * (cycles days).years + (cycles days).days := by
  simp only [cycles, parts]
  generalize hera : days % 146097 = inEra
  have hcentury : 0 ≤ inEra - 36524 * (inEra / 36524 - inEra / 36524 / 4) ∧
      inEra - 36524 * (inEra / 36524 - inEra / 36524 / 4) ≤ 36524 := by omega
  generalize hrest : inEra - 36524 * (inEra / 36524 - inEra / 36524 / 4) = inCentury at hcentury
  generalize hquad : inCentury % 1461 = inQuad
  omega

theorem marchMonth_bounds {day : Int} (h₀ : 0 ≤ day) (h₁ : day < 366) :
    (0 ≤ marchMonth day ∧ marchMonth day < 12) ∧
      0 ≤ day - (153 * marchMonth day + 2) / 5 ∧ day - (153 * marchMonth day + 2) / 5 < 31 := by
  unfold marchMonth
  omega

theorem civil_month_lt (days : Int) : (civil days).month < 100 := by
  obtain ⟨-, -, -, ⟨h₀, h₁⟩, -⟩ := cycles_spec (days + 719468)
  obtain ⟨hmonth, -⟩ := marchMonth_bounds h₀ h₁
  simp only [civil]
  omega

theorem civil_day_lt (days : Int) : (civil days).day < 100 := by
  obtain ⟨-, -, -, ⟨h₀, h₁⟩, -⟩ := cycles_spec (days + 719468)
  obtain ⟨-, hday⟩ := marchMonth_bounds h₀ h₁
  simp only [civil]
  omega

theorem Cycles.year_parts {c : Cycles} (hcenturies : 0 ≤ c.centuries ∧ c.centuries < 4)
    (hquads : 0 ≤ c.quads ∧ c.quads < 25) (hyears : 0 ≤ c.years ∧ c.years < 4) :
    c.year / 400 = c.eras ∧ c.year % 400 / 100 = c.centuries ∧ c.year % 100 / 4 = c.quads ∧
      c.year % 4 = c.years := by
  unfold Cycles.year
  omega

/-- The date determines the day. -/
theorem days_civil (days : Int) : (civil days).days = days := by
  obtain ⟨hcenturies, hquads, hyears, ⟨h₀, h₁⟩, hdays⟩ := cycles_spec (days + 719468)
  obtain ⟨hmonth, hday⟩ := marchMonth_bounds h₀ h₁
  obtain ⟨heras, hcentury, hquad, hyear⟩ := Cycles.year_parts hcenturies hquads hyears
  simp only [civil, Date.days]
  -- January and February belong to the March year before
  by_cases hlate : marchMonth (cycles (days + 719468)).days < 10
  · have hafter : 2 < (marchMonth (cycles (days + 719468)).days + 3).toNat := by omega
    simp only [if_pos hlate, if_pos hafter, heras, hcentury, hquad, hyear]
    omega
  · have hbefore : ¬2 < (marchMonth (cycles (days + 719468)).days - 9).toNat := by omega
    simp only [if_neg hlate, if_neg hbefore, Int.add_sub_cancel, heras, hcentury, hquad, hyear]
    omega

/-- The glyphs of the decimal digits. -/
def digit (i : Nat) : UInt8 := (48 + i).toUInt8

theorem distinct_digit : Distinct 10 digit := by
  intro i hi j hj h
  have hnat : (48 + i) % 256 = (48 + j) % 256 := by
    simpa [digit, UInt8.toNat_ofNat'] using congrArg UInt8.toNat h
  omega

def fourDigits (n : Nat) : List UInt8 :=
  if n < 10 ^ 4 then fixedWidth 10 digit 4 n else numeral 10 digit n

def yearText (year : Int) : List UInt8 :=
  if year < 0 then 45 :: fourDigits year.natAbs else fourDigits year.natAbs

def dayLength : Int := 24 * 60 * 60 * 1000000

def restText (date : Date) (clock : Nat) : List UInt8 :=
  45 :: (fixedWidth 10 digit 2 date.month ++ 45 :: (fixedWidth 10 digit 2 date.day ++
    84 :: (fixedWidth 10 digit 2 (clock / 3600000000) ++
      58 :: (fixedWidth 10 digit 2 (clock / 60000000 % 60) ++
        58 :: (fixedWidth 10 digit 2 (clock / 1000000 % 60) ++
          46 :: (fixedWidth 10 digit 6 (clock % 1000000) ++ [90]))))))

/-- `2006-01-02T15:04:05.000000Z` for a time in microseconds. -/
def timeText (time : Int) : List UInt8 :=
  let date := civil (time / dayLength)
  yearText date.year ++ restText date (time % dayLength).toNat

theorem fourDigits_injective : Function.Injective fourDigits := by
  have hlong {n : Nat} (hn : ¬n < 10 ^ 4) : 4 < (numeral 10 digit n).length := by
    have hlog := Nat.le_log_of_pow_le (by decide) (Nat.le_of_not_lt hn)
    simp only [numeral, length_fixedWidth]
    omega
  intro n m h
  unfold fourDigits at h
  split at h <;> split at h
  case isTrue.isTrue hn hm => exact fixedWidth_inj (by decide) distinct_digit hn hm h
  case isTrue.isFalse hn hm =>
    have hlength := hlong hm
    rw [← h, length_fixedWidth] at hlength
    omega
  case isFalse.isTrue hn hm =>
    have hlength := hlong hn
    rw [h, length_fixedWidth] at hlength
    omega
  case isFalse.isFalse => exact numeral_injective (by decide) distinct_digit h

/-- A number is not written with a sign. -/
theorem sign_not_mem_fourDigits (n : Nat) : 45 ∉ fourDigits n := by
  have hdigit (i : Nat) (hi : i < 10) : digit i ≠ 45 := by
    intro h
    have hnat : (48 + i) % 256 = 45 := by
      simpa [digit, UInt8.toNat_ofNat'] using congrArg UInt8.toNat h
    omega
  intro hmem
  have hfixed : ∃ w, 45 ∈ fixedWidth 10 digit w n := by
    unfold fourDigits at hmem
    split at hmem
    · exact ⟨4, hmem⟩
    · exact ⟨_, hmem⟩
  obtain ⟨w, hmem⟩ := hfixed
  obtain ⟨i, hi, heq⟩ := mem_fixedWidth (by decide) hmem
  exact hdigit i hi heq.symm

theorem yearText_injective : Function.Injective yearText := by
  intro y z h
  unfold yearText at h
  split at h <;> split at h
  · have habs := fourDigits_injective (cons.inj h).2
    omega
  · exact absurd (h ▸ mem_cons_self) (sign_not_mem_fourDigits z.natAbs)
  · exact absurd (h ▸ mem_cons_self) (sign_not_mem_fourDigits y.natAbs)
  · have habs := fourDigits_injective h
    omega

theorem fixedWidth_append_inj {w n m : Nat} {rest rest' : List UInt8} (hn : n < 10 ^ w)
    (hm : m < 10 ^ w) (h : fixedWidth 10 digit w n ++ rest = fixedWidth 10 digit w m ++ rest') :
    n = m ∧ rest = rest' := by
  obtain ⟨hnumeral, hrest⟩ := append_inj h (by simp)
  exact ⟨fixedWidth_inj (by decide) distinct_digit hn hm hnumeral, hrest⟩

theorem restText_inj {d d' : Date} {c c' : Nat} (hmonth : d.month < 100) (hmonth' : d'.month < 100)
    (hday : d.day < 100) (hday' : d'.day < 100) (hc : c < 86400000000) (hc' : c' < 86400000000)
    (h : restText d c = restText d' c') : d.month = d'.month ∧ d.day = d'.day ∧ c = c' := by
  obtain ⟨hm, h⟩ := fixedWidth_append_inj hmonth hmonth' (cons.inj h).2
  obtain ⟨hd, h⟩ := fixedWidth_append_inj hday hday' (cons.inj h).2
  obtain ⟨hhour, h⟩ := fixedWidth_append_inj (by omega) (by omega) (cons.inj h).2
  obtain ⟨hminute, h⟩ := fixedWidth_append_inj (by omega) (by omega) (cons.inj h).2
  obtain ⟨hsecond, h⟩ := fixedWidth_append_inj (by omega) (by omega) (cons.inj h).2
  obtain ⟨hmicro, -⟩ := fixedWidth_append_inj (by omega) (by omega) (cons.inj h).2
  exact ⟨hm, hd, by omega⟩

@[simp] theorem length_restText (d : Date) (c : Nat) : (restText d c).length = 23 := by
  simp [restText]

theorem timeText_injective : Function.Injective timeText := by
  intro t u h
  obtain ⟨hyear, hrest⟩ := append_inj' h (by simp)
  have hlt (v : Int) : (v % dayLength).toNat < 86400000000 := by
    unfold dayLength
    omega
  obtain ⟨hmonth, hday, hclock⟩ := restText_inj (civil_month_lt _) (civil_month_lt _)
    (civil_day_lt _) (civil_day_lt _) (hlt t) (hlt u) hrest
  have hdate : civil (t / dayLength) = civil (u / dayLength) := by
    rw [Date.mk.injEq]
    exact ⟨yearText_injective hyear, hmonth, hday⟩
  have hdays : t / dayLength = u / dayLength := by
    rw [← days_civil (t / dayLength), hdate, days_civil]
  unfold dayLength at hdays hclock
  omega

end MeshsatHub.Calendar
