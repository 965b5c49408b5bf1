import MeshsatHub.Foundations.Runs

/-!
# Missed check-ins

A scan marks a switch as alerted before it creates the alert, every later scan leaves a marked
switch alone, and a check-in clears the mark. The scans and check-ins of one device come one after
the other. A crash between the two writes of a scan is an alert creation that fails.
-/

namespace MeshsatHub.Deadman
open Runs

structure Config where
  chainID : String
  intervalSec : Int
  graceSec : Int
  enabled : Bool
  snoozedUntil : Option Int
  alerted : Bool

structure Alert where
  chainID : String
  type : String
  lastSeen : Int

inductive Entry where
  | checkIn
  | alert (a : Alert)

/-- The switch of one device, when it was last seen, and its history, newest first. -/
structure State where
  config : Config
  lastSeen : Int
  log : List Entry

inductive Event where
  | scan (now : Int) (listed found saved created : Bool)
  | checkIn (now : Int) (found saved touched : Bool)

def second : Int := 1000000000

variable (s : State)

def deadline : Int :=
  s.lastSeen + s.config.intervalSec * second + s.config.graceSec * second

def checkDevice (now : Int) (found saved created : Bool) : State :=
  if s.config.snoozedUntil.any (now < ·) then s
  else if s.config.alerted then s
  else if !found then s
  else if now < deadline s then s
  else if !saved then s
  else { s with
    config := { s.config with alerted := true }
    log := if created then .alert ⟨s.config.chainID, "deadman", s.lastSeen⟩ :: s.log else s.log }

def scan (now : Int) (listed found saved created : Bool) : State :=
  if listed && s.config.enabled then checkDevice s now found saved created else s

def checkIn (s : State) (now : Int) (found saved touched : Bool) : State where
  config := if found && s.config.alerted && saved then { s.config with alerted := false }
    else s.config
  lastSeen := if touched then now else s.lastSeen
  log := .checkIn :: s.log

def step : Event → Option State
  | .scan now listed found saved created => scan s now listed found saved created
  | .checkIn now found saved touched => checkIn s now found saved touched

/-- A `deadman` alert was created after the last check-in. -/
def alertedSince : List Entry → Bool
  | [] => false
  | .checkIn :: _ => false
  | .alert a :: log => a.type == "deadman" || alertedSince log

/-- No alert creation fails once the switch is marked, and no check-in leaves the mark. -/
def cleared : Event → Bool
  | .scan _ _ _ saved created => !saved || created
  | .checkIn _ found saved _ => !s.config.alerted || found && saved

def switchedOn (config : Config) (lastSeen : Int) : State :=
  ⟨{ config with alerted := false }, lastSeen, []⟩

def Marked : Prop :=
  s.config.alerted = true → alertedSince s.log = true

theorem marked_checkDevice {s : State} {saved created : Bool} (now : Int) (found : Bool)
    (h : Marked s) (hcreated : (!saved || created)) :
    Marked (checkDevice s now found saved created) := by
  fun_cases checkDevice s now found saved created with
  | case6 _ _ _ _ hsaved =>
    rw [Bool.not_eq_true, Bool.not_eq_false'] at hsaved
    rw [hsaved, Bool.not_true, Bool.false_or] at hcreated
    rw [hcreated]
    exact fun _ => rfl
  | _ => exact h

theorem alerted_checkIn (s : State) {found saved : Bool} (now : Int) (touched : Bool)
    (hcleared : (!s.config.alerted || found && saved)) :
    (checkIn s now found saved touched).config.alerted = false := by
  cases halerted : s.config.alerted with
  | false => simp [checkIn, halerted]
  | true =>
    rw [halerted, Bool.not_true, Bool.false_or, Bool.and_eq_true] at hcleared
    simp [checkIn, halerted, hcleared]

theorem marked_step (s : State) (e : Event) (t : State) (h : Marked s) (hok : cleared s e)
    (hstep : step s e = some t) : Marked t := by
  cases e with cases hstep
  | scan now listed found saved created =>
    unfold scan
    split
    · exact marked_checkDevice now found h hok
    · exact h
  | checkIn now found saved touched =>
    intro halerted
    rw [alerted_checkIn s now touched hok] at halerted
    cases halerted

/-- A mark stands for an alert, and without an alert the next scan past the deadline creates it. -/
theorem missed_check_in_alerted {config : Config} {lastSeen : Int} {s : State}
    (h : Reaches step (fun s e => cleared s e = true) (switchedOn config lastSeen) s) :
    (s.config.alerted = true → alertedSince s.log = true) ∧
      ∀ now, s.config.enabled = true → s.config.snoozedUntil = none → deadline s ≤ now →
        alertedSince s.log = false → alertedSince (scan s now true true true true).log = true := by
  have hmarked : Marked s := h.invariant (nofun : Marked (switchedOn config lastSeen)) marked_step
  refine ⟨hmarked, fun now henabled hawake hlate hnone => ?_⟩
  have hunmarked : s.config.alerted = false := by
    rw [← Bool.not_eq_true]
    intro halerted
    rw [hmarked halerted] at hnone
    cases hnone
  simp [scan, checkDevice, henabled, hawake, hunmarked, Int.not_lt.2 hlate, alertedSince]

def tracker : State :=
  switchedOn ⟨"ops", 60, 10, true, none, false⟩ 0

theorem missed_check_in_alerted_retried :
    alertedSince (scan tracker (70 * second) true true true true).log = true ∧
      alertedSince (scan (scan tracker (70 * second) true true false true) (80 * second)
        true true true true).log = true := by
  have hmarked := missed_check_in_alerted (s := scan tracker (70 * second) true true true true)
    (Reaches.tail (.scan (70 * second) true true true true) .refl rfl rfl)
  have hunsaved := missed_check_in_alerted (s := scan tracker (70 * second) true true false true)
    (Reaches.tail (.scan (70 * second) true true false true) .refl rfl rfl)
  exact ⟨hmarked.1 rfl, hunsaved.2 (80 * second) rfl rfl (by decide) rfl⟩

/-- An alert creation that fails after the mark, and a check-in that fails to clear the mark. -/
theorem alert_lost : (∃ s, Reaches step (fun _ _ => True) tracker s ∧
      s.config.alerted = true ∧ s.log.length = 0) ∧
    ∃ s, Reaches step (fun _ _ => True) tracker s ∧
      s.config.alerted = true ∧ s.log.length = 2 ∧ alertedSince s.log = false :=
  ⟨exists_reaches_of_decide [.scan (70 * second) true true true false] (by decide +kernel),
    exists_reaches_of_decide [.scan (70 * second) true true true true,
      .checkIn (80 * second) true false true] (by decide +kernel)⟩

end MeshsatHub.Deadman
