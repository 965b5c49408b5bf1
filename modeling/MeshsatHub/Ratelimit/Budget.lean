import Mathlib
import MeshsatHub.Foundations.Interleaving

/-!
# Send budgets across replicas

`RedisLimiter.Allow` reads the month's counter, increments the day's counter and compares it, and
increments the month's counter last. An operation is one step and does not fail. One device without
an override; the keys outlive the calls of their day and month.
-/

namespace MeshsatHub.Ratelimit
open Interleaving Runs List Function

structure Caps where
  daily : Int
  monthly : Int

structure Counters where
  days : Nat → Nat
  months : Nat → Nat

structure Request where
  isSOS : Bool
  day : Nat
  month : Nat

/-- What a call does next. -/
inductive Stage where
  | begin
  | getMonth
  | incrDay
  | incrMonth
  | returned (allowed : Bool)
  deriving DecidableEq

structure Call extends Request where
  stage : Stage

section Model
variable (caps : Caps)

def Caps.afterDay : Stage := if 0 < caps.monthly then .incrMonth else .returned true

def Caps.afterMonth : Stage := if 0 < caps.daily then .incrDay else caps.afterDay

def Caps.next (g : Counters) (r : Request) : Stage → Option (Counters × Stage)
  | .begin => some (g, if r.isSOS then .returned true
      else if 0 < caps.monthly then .getMonth else caps.afterMonth)
  | .getMonth => some (g, if caps.monthly ≤ g.months r.month then .returned false
      else caps.afterMonth)
  | .incrDay => some ({ g with days := update g.days r.day (g.days r.day + 1) },
      if caps.daily < g.days r.day + 1 then .returned false else caps.afterDay)
  | .incrMonth => some
      ({ g with months := update g.months r.month (g.months r.month + 1) }, .returned true)
  | .returned _ => none

def Caps.allow : Program Counters Call Request Unit where
  start g r := some (g, ⟨r, .begin⟩)
  perform g c _ := (caps.next g c.toRequest c.stage).map fun (g, stage) => (g, { c with stage })

def unused : System Counters Call := ⟨⟨fun _ => 0, fun _ => 0⟩, []⟩

def count (q : Request → Bool) (p : Stage → Bool) (s : System Counters Call) : Nat :=
  s.calls.countP fun c => !c.isSOS && q c.toRequest && p c.stage

def sentOn (day : Nat) : System Counters Call → Nat := count (·.day = day) (· = .returned true)

def sentIn (month : Nat) : System Counters Call → Nat :=
  count (·.month = month) (· = .returned true)

/-- The month's counter was found below the budget and is still to be incremented. -/
def Stage.underway (stage : Stage) : Bool := stage = .incrDay || stage = .incrMonth

/-- A month's counter is read while nobody is between reading and incrementing it. -/
def apart (s : System Counters Call) : Event Request Unit → Bool
  | .act i _ => s.calls[i]?.all fun c =>
    c.stage != .getMonth || s.calls.all fun m => m.month != c.month || !m.stage.underway
  | .start _ => true

end Model

section Budgets
variable {caps : Caps} {s t : System Counters Call} {e : Event Request Unit}

theorem count_step (hstep : step caps.allow s e = some t) :
    (t.shared = s.shared ∧ ∀ q p, p .begin = false → count q p t = count q p s) ∨
      ∃ i c stage, e = .act i () ∧ s.calls[i]? = some c ∧
        caps.next s.shared c.toRequest c.stage = some (t.shared, stage) ∧
        ∀ q p, count q p t ≤ count q p s ∨ count q p t = count q p s + 1 ∧ c.isSOS = false ∧
          q c.toRequest ∧ p c.stage = false ∧ p stage := by
  obtain ⟨r, g, c, hstart⟩ | ⟨i, _, c, g, c', hi, hact⟩ := step_cases hstep
  · cases hstart
    refine .inl ⟨rfl, fun q p hp => ?_⟩
    simp [count, countP_append, hp]
  · obtain ⟨⟨g, stage⟩, hnext, heq⟩ := Option.map_eq_some_iff.1 hact
    cases heq
    refine .inr ⟨i, c, stage, rfl, hi, hnext, fun q p => ?_⟩
    obtain ⟨front, back, hcalls, hset, -⟩ := exists_split hi { c with stage }
    simp only [count, hset]
    simp only [hcalls, countP_append, countP_cons]
    grind

/-- The daily budget has let the call pass. -/
def Stage.passed (stage : Stage) : Bool := stage = .incrMonth || stage = .returned true

/-- The call counts for its month, now or once it has returned. -/
def Stage.taken (stage : Stage) : Bool := stage.underway || stage = .returned true

variable {g g' : Counters} {r : Request} {stage stage' : Stage}
  (h : caps.next g r stage = some (g', stage'))
include h

theorem next_mono : g.days ≤ g'.days ∧ g.months ≤ g'.months := by
  revert h
  fun_cases Caps.next caps g r stage with rintro ⟨⟩
  | case3 => exact ⟨le_update_self_iff.2 (Nat.le_succ _), le_rfl⟩
  | case4 => exact ⟨le_rfl, le_update_self_iff.2 (Nat.le_succ _)⟩
  | case1 | case2 => exact ⟨le_rfl, le_rfl⟩

/-- A call passes the daily budget with a number within it, it is taken for a month whose counter
is below the budget, and it returns true when that counter is incremented. -/
theorem next_spec (hsos : r.isSOS = false) : (0 < caps.daily → stage'.passed → stage.passed ∨
      g'.days r.day = g.days r.day + 1 ∧ g.days r.day + 1 ≤ caps.daily) ∧
    (0 < caps.monthly → (stage' = .returned true → g'.months r.month = g.months r.month + 1) ∧
      (stage'.taken → stage.taken ∨
        stage = .getMonth ∧ g.months r.month < caps.monthly)) := by
  revert h
  fun_cases Caps.next caps g r stage with rintro ⟨⟩
  | case4 => exact ⟨fun _ _ => .inl rfl, fun _ => ⟨fun _ => update_self .., fun _ => .inl rfl⟩⟩
  | case1 | case2 | case3 =>
    grind [Caps.afterDay, Caps.afterMonth, Stage.passed, Stage.taken, Stage.underway]

omit h

def DayKept (caps : Caps) (day : Nat) (s : System Counters Call) : Prop :=
  count (·.day = day) Stage.passed s ≤ s.shared.days day ∧
    (count (·.day = day) Stage.passed s : Int) ≤ caps.daily

theorem dayKept_step {day : Nat} (hcap : 0 < caps.daily) (h : DayKept caps day s)
    (hstep : step caps.allow s e = some t) : DayKept caps day t := by
  obtain ⟨hcount, hle⟩ := h
  unfold DayKept
  obtain ⟨hsame, hbegun⟩ | ⟨i, c, stage, rfl, hi, hnext, hacted⟩ := count_step hstep
  · rw [hsame, hbegun _ _ rfl]
    exact ⟨hcount, hle⟩
  · have hmono : s.shared.days day ≤ t.shared.days day := (next_mono hnext).1 day
    obtain hless | ⟨hmore, hsos, hday, hbefore, hpassed⟩ := hacted (·.day = day) Stage.passed
    · omega
    · obtain rfl := of_decide_eq_true hday
      obtain hp | ⟨hdays, hwithin⟩ := (next_spec hnext hsos).1 hcap hpassed
      · exact absurd hp (by simp [hbefore])
      · omega

def MonthKept (caps : Caps) (month : Nat) (s : System Counters Call) : Prop :=
  sentIn month s ≤ s.shared.months month ∧
    (count (·.month = month) Stage.taken s : Int) ≤ caps.monthly

theorem monthKept_step {month : Nat} (hcap : 0 < caps.monthly) (h : MonthKept caps month s)
    (hapart : apart s e) (hstep : step caps.allow s e = some t) : MonthKept caps month t := by
  obtain ⟨hsent, htaken⟩ := h
  unfold MonthKept sentIn at *
  obtain ⟨hsame, hbegun⟩ | ⟨i, c, stage, rfl, hi, hnext, hacted⟩ := count_step hstep
  · rw [hsame, hbegun _ _ rfl, hbegun _ _ rfl]
    exact ⟨hsent, htaken⟩
  · have hmono : s.shared.months month ≤ t.shared.months month := (next_mono hnext).2 month
    constructor
    · obtain hless | ⟨hmore, hsos, hmonth, -, hp⟩ := hacted (·.month = month) (· = .returned true)
      · omega
      · obtain rfl := of_decide_eq_true hmonth
        have hmonths := ((next_spec hnext hsos).2 hcap).1 (of_decide_eq_true hp)
        omega
    · obtain hless | ⟨hmore, hsos, hmonth, hbefore, hp⟩ := hacted (·.month = month) Stage.taken
      · omega
      · obtain rfl := of_decide_eq_true hmonth
        obtain hp | ⟨hstage, hbelow⟩ := ((next_spec hnext hsos).2 hcap).2 hp
        · exact absurd hp (by simp [hbefore])
        · -- Nobody is underway, so whoever counts for the month has returned.
          have hreturned : count (·.month = c.month) Stage.taken s ≤
              count (·.month = c.month) (· = .returned true) s := by
            refine countP_mono_left fun m hm hcounts => ?_
            simp only [apart, hi, Option.all_some, hstage, bne_self_eq_false, Bool.false_or,
              all_eq_true] at hapart
            have hidle := hapart m hm
            grind [Stage.taken]
          omega

theorem sent_le {q : Request → Bool} {p : Stage → Bool}
    (hp : ∀ stage, stage = .returned true → p stage) :
    (count q (· = .returned true) s : Int) ≤ count q p s := by
  refine Int.ofNat_le.2 (countP_mono_left fun c _ h => ?_)
  simp only [Bool.and_eq_true, decide_eq_true_eq] at h ⊢
  exact ⟨h.1, hp _ h.2⟩

/-- The daily budget is kept in every run, the monthly one in every run in which readings and
increments of a month's counter are apart; an SOS is allowed and changes no counter. -/
theorem budget_kept (caps : Caps) :
    (∀ s, Reaches (step caps.allow) (fun _ _ => True) unused s → 0 < caps.daily →
      ∀ day, (sentOn day s : Int) ≤ caps.daily) ∧
    (∀ s, Reaches (step caps.allow) (fun s e => apart s e = true) unused s → 0 < caps.monthly →
      ∀ month, (sentIn month s : Int) ≤ caps.monthly) ∧
    ∀ g r, r.isSOS = true → caps.next g r .begin = some (g, .returned true) := by
  refine ⟨fun s hs hcap day => ?_, fun s hs hcap month => ?_, fun g r hsos => ?_⟩
  · have hkept : DayKept caps day s := by
      apply hs.invariant ⟨Nat.le_refl _, Int.le_of_lt hcap⟩
      exact fun s e t h _ hstep => dayKept_step hcap h hstep
    exact Int.le_trans (sent_le fun _ h => by simp [Stage.passed, h]) hkept.2
  · have hkept : MonthKept caps month s := by
      apply hs.invariant ⟨Nat.le_refl _, Int.le_of_lt hcap⟩
      exact fun s e t h hapart hstep => monthKept_step hcap h hapart hstep
    exact Int.le_trans (sent_le fun _ h => by simp [Stage.taken, h]) hkept.2
  · simp [Caps.next, hsos]

/-- Three calls one after the other, of which a monthly budget of two lets two pass. -/
theorem budget_kept_in_turn :
    ∃ s, Reaches (step (Caps.allow ⟨5, 2⟩)) (fun s e => apart s e = true) unused s ∧
      (sentIn 0 s = 2 ∧ s.calls.length = 3) ∧ (sentIn 0 s : Int) ≤ 2 := by
  exact exists_reaches_and_of_decide
    (flatten ([0, 1, 2].map fun i => [.start ⟨false, 0, 0⟩, .act i (), .act i ()] ++
      if i < 2 then [.act i (), .act i ()] else []))
    (by decide +kernel) fun _ hs => (budget_kept ⟨5, 2⟩).2.1 _ hs (by decide) 0

/-- Two calls read the month's counter before either increments it. -/
theorem month_overdrawn :
    ∃ s, Reaches (step (Caps.allow ⟨5, 1⟩)) (fun _ _ => True) unused s ∧ sentIn 0 s = 2 := by
  exact exists_reaches_of_decide ([.start ⟨false, 0, 0⟩, .start ⟨false, 0, 0⟩] ++
      (replicate 4 [.act 0 (), .act 1 ()]).flatten) (by decide +kernel)

end Budgets

end MeshsatHub.Ratelimit
