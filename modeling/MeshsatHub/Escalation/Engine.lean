import MeshsatHub.Escalation.Alerts
import MeshsatHub.Foundations.Interleaving

/-!
# The escalation engine

The calls of the engine as sequences of operations. A pass reads the clock once, right after it has
listed the alerts; each due one it leases by a compare-and-set on `next_esc_at`, notifies, and moves
on by another one. An operation carries the reading of the caller's clock and how it ends. No
operation looks at `log`.
-/

namespace MeshsatHub.Escalation
open Tables Interleaving

structure EscalationTier where
  waitSec : Int
  maxRetries : Int

structure Engine where
  driver : Driver
  chains : String → String → Option (List EscalationTier)

section

/-- A number of seconds as a 64-bit duration. -/
def seconds (n : Int) : Int := (n * 1000000000).bmod (2 ^ 64)

def escalationLease : Int := 2 * 60 * 1000000000

variable (a : Alert)

def Alert.raised (now : Int) : Alert :=
  { a with
    id := if a.id = "" then "alert-" ++ toString now else a.id
    state := .triggered
    currentTier := 0
    retries := 0
    createdAt := now
    updatedAt := now
    nextEscAt := now }

def closedBeforeRaised : String := " (cancelled before it paged)"

def Alert.tombstone (who : String) (now : Int) : Alert :=
  { a with
    state := .cancelled
    detail := a.detail ++ closedBeforeRaised
    currentTier := 0
    retries := 0
    ackedBy := who
    ackedAt := some now
    createdAt := now
    updatedAt := now
    nextEscAt := now }

/-- The two ways in which somebody closes an alert. -/
inductive Closure where
  | acknowledged
  | cancelled

def Closure.state : Closure → AlertState
  | .acknowledged => .acknowledged
  | .cancelled => .cancelled

def Alert.closed (how : Closure) (who : String) (now : Int) : Alert :=
  { a with state := how.state, ackedBy := who, ackedAt := some now, updatedAt := now }

def Alert.exhausted (a : Alert) (now : Int) : Alert :=
  { a with state := .exhausted, updatedAt := now }

def Alert.leased (now : Int) : Alert :=
  { a with state := .escalating, nextEscAt := now + escalationLease, updatedAt := now }

/-- Doubled with every retry, up to the tier's wait. -/
def backoff (retries : Nat) (waitSec : Int) : Int :=
  min (2 ^ min retries 16 * 1000000000) (seconds waitSec)

def Alert.notified (tiers : List EscalationTier) (tier : EscalationTier) (now : Int) : Alert :=
  if tier.maxRetries ≤ a.retries + 1 then
    match tiers[a.currentTier + 1]? with
    | none =>
      { a with
        currentTier := a.currentTier + 1
        retries := 0
        state := .exhausted
        nextEscAt := now
        updatedAt := now }
    | some next =>
      { a with
        currentTier := a.currentTier + 1
        retries := 0
        nextEscAt := now + seconds next.waitSec
        updatedAt := now }
  else
    { a with
      retries := a.retries + 1
      nextEscAt := now + backoff (a.retries + 1) tier.waitSec
      updatedAt := now }

inductive Kind where
  | leased
  | notified
  | finished
  deriving DecidableEq

structure Entry where
  kind : Kind
  id : String
  tier : Nat
  retry : Nat
  time : Int

structure Store where
  alerts : Alerts
  log : List Entry

/-- Where a call stands. What a call of the worker has listed and not yet come to is
its `rest`; the alert of a step is the one listed until it is leased. -/
inductive Call where
  | checking (tenantID : String) (alert : Alert)
  | creating (tenantID : String) (alert : Alert) (once : Bool)
  | rechecking (tenantID : String) (alert : Alert)
  | acknowledging (tenantID id who : String)
  | cancelling (tenantID id who : String)
  | closing (tenantID : String) (alert : Alert) (who : String) (rounds : Nat)
  | burying (tenantID : String) (alert : Alert) (who : String) (rounds : Nat)
  | updating (tenantID : String) (alert : Alert) (how : Closure) (who : String) (now : Int)
  | listing
  | loading (alert : Alert) (now : Int) (rest : List Alert)
  | exhausting (alert : Alert) (now : Int) (rest : List Alert)
  | leasing (tiers : List EscalationTier) (tier : EscalationTier) (alert : Alert) (now : Int)
      (rest : List Alert)
  | notifying (tiers : List EscalationTier) (tier : EscalationTier) (alert : Alert) (now : Int)
      (rest : List Alert)
  | finishing (tiers : List EscalationTier) (tier : EscalationTier) (alert : Alert) (now : Int)
      (rest : List Alert)
  | returned (answer : Option Bool)

inductive Request where
  | trigger (tenantID : String) (alert : Alert)
  | triggerOnce (tenantID : String) (alert : Alert)
  | acknowledge (tenantID id who : String)
  | cancel (tenantID id who : String)
  | close (tenantID : String) (alert : Alert) (who : String)
  | processAlerts

/-- An operation: the caller's clock, and how it ends. -/
structure Op where
  now : Int
  outcome : Outcome

def closeRounds : Nat := 3

def Request.begin : Request → Call
  | .trigger tenantID alert => .creating tenantID alert false
  | .triggerOnce tenantID alert =>
    if alert.id = "" then .returned none else .checking tenantID alert
  | .acknowledge tenantID id who => .acknowledging tenantID id who
  | .cancel tenantID id who => .cancelling tenantID id who
  | .close tenantID alert who =>
    if alert.id = "" then .returned none else .closing tenantID alert who closeRounds
  | .processAlerts => .listing

def nextDue (now : Int) : List Alert → Call
  | [] => .returned (some true)
  | a :: rest => if now < a.nextEscAt then nextDue now rest else .loading a now rest

def close (tenantID : String) (a : Alert) (how : Closure) (who : String) (now : Int)
    (again : Bool) : Call :=
  if a.state = how.state then .returned (some again) else .updating tenantID a how who now

def Op.reads {A : Type} (op : Op) (answer : Option A) : Option A :=
  if op.outcome.ok then answer else none

def Op.writes {A : Type} (op : Op) (before after : A) : A :=
  if op.outcome.effective then after else before

def Store.note (g : Store) (kind : Kind) (a : Alert) (op : Op) : List Entry :=
  g.log ++ [⟨kind, a.id, a.currentTier, a.retries, op.now⟩]

variable (e : Engine)

def perform (g : Store) (c : Call) (op : Op) : Option (Store × Call) :=
  match c with
  | .checking tenantID a =>
    match op.reads (getAlert g.alerts tenantID a.id) with
    | some _ => some (g, .returned (some false))
    | none => some (g, .creating tenantID a true)
  | .creating tenantID a once =>
    let failed : Call := if once then .rechecking tenantID a else .returned none
    match createAlert e.driver g.alerts tenantID (a.raised op.now) with
    | none => some (g, failed)
    | some alerts =>
      some ({ g with alerts := op.writes g.alerts alerts },
        if op.outcome.ok then .returned (some true) else failed)
  | .rechecking tenantID a =>
    match op.reads (getAlert g.alerts tenantID a.id) with
    | some _ => some (g, .returned (some false))
    | none => some (g, .returned none)
  | .acknowledging tenantID id who =>
    match op.reads (getAlert g.alerts tenantID id) with
    | some a => some (g, close tenantID a .acknowledged who op.now true)
    | none => some (g, .returned none)
  | .cancelling tenantID id who =>
    if op.outcome.ok then
      match getAlert g.alerts tenantID id with
      | some a => some (g, close tenantID a .cancelled who op.now false)
      | none => some (g, .returned (some false))
    else some (g, .returned none)
  | .closing tenantID a who rounds =>
    if op.outcome.ok then
      match getAlert g.alerts tenantID a.id with
      | some existing => some (g, close tenantID existing .cancelled who op.now false)
      | none => some (g, .burying tenantID a who (rounds - 1))
    else some (g, .returned none)
  | .burying tenantID a who rounds =>
    let failed : Call :=
      if rounds = 0 then .returned none else .closing tenantID a who rounds
    match createAlert e.driver g.alerts tenantID (a.tombstone who op.now) with
    | none => some (g, failed)
    | some alerts =>
      some ({ g with alerts := op.writes g.alerts alerts },
        if op.outcome.ok then .returned (some true) else failed)
  | .updating tenantID a how who now =>
    some ({ g with
        alerts := op.writes g.alerts
          (updateAlert e.driver g.alerts tenantID (a.closed how who now)) },
      .returned (if op.outcome.ok then some true else none))
  | .listing =>
    some (g, if op.outcome.ok then nextDue op.now (listAlerts g.alerts 100) else .returned none)
  | .loading a now rest =>
    match op.reads (e.chains a.tenantID a.chainID) with
    | none => some (g, .exhausting a now rest)
    | some tiers =>
      match tiers[a.currentTier]? with
      | none => some (g, .exhausting a now rest)
      | some tier => some (g, .leasing tiers tier a now rest)
  | .exhausting a now rest =>
    let advance := advanceAlert e.driver g.alerts a.tenantID (a.exhausted now) a.nextEscAt
    some ({ g with alerts := op.writes g.alerts advance.1 }, nextDue now rest)
  | .leasing tiers tier a now rest =>
    let advance := advanceAlert e.driver g.alerts a.tenantID (a.leased now) a.nextEscAt
    let alerts := op.writes g.alerts advance.1
    if op.outcome.ok && advance.2 then
      some (⟨alerts, g.note .leased a op⟩, .notifying tiers tier (a.leased now) now rest)
    else some ({ g with alerts := alerts }, nextDue now rest)
  | .notifying tiers tier a now rest =>
    some (⟨g.alerts, g.note .notified a op⟩, .finishing tiers tier a now rest)
  | .finishing tiers tier a now rest =>
    let advance :=
      advanceAlert e.driver g.alerts a.tenantID (a.notified tiers tier now) a.nextEscAt
    some (⟨op.writes g.alerts advance.1, g.note .finished a op⟩, nextDue now rest)
  | .returned _ => none

def program : Program Store Call Request Op :=
  ⟨fun g request => some (g, request.begin), perform e⟩

def initial : System Store Call := ⟨⟨Table.empty, []⟩, []⟩

end

variable {e : Engine} {g g' : Store} {c c' : Call} {op : Op}

def Call.inserts (now : Int) : Call → Option (String × Alert)
  | .creating tenantID a _ => some (tenantID, a.raised now)
  | .burying tenantID a who _ => some (tenantID, a.tombstone who now)
  | _ => none

/-- What a call is about to write by a compare-and-set, and the time it expects. -/
def Call.advances : Call → Option (Alert × Int)
  | .exhausting a now _ => some (a.exhausted now, a.nextEscAt)
  | .leasing _ _ a now _ => some (a.leased now, a.nextEscAt)
  | .finishing tiers tier a now _ => some (a.notified tiers tier now, a.nextEscAt)
  | _ => none

theorem Op.writes_eq {A : Type} (op : Op) (before after : A) :
    op.writes before after = before ∨ op.writes before after = after := by
  unfold Op.writes
  split
  · exact .inr rfl
  · exact .inl rfl

theorem perform_alerts (h : perform e g c op = some (g', c')) : g'.alerts = g.alerts ∨
      (∃ tenantID a, c.inserts op.now = some (tenantID, a) ∧
        createAlert e.driver g.alerts tenantID a = some g'.alerts) ∨
      (∃ tenantID a how who now, c = .updating tenantID a how who now ∧
        g'.alerts = updateAlert e.driver g.alerts tenantID (a.closed how who now)) ∨
      ∃ tenantID a expected, c.advances = some (a, expected) ∧
        g'.alerts = (advanceAlert e.driver g.alerts tenantID a expected).1 := by
  revert h
  fun_cases perform e g c op with
  | case4 tenantID a once failed alerts hcreate
  | case16 tenantID a who rounds failed alerts hcreate =>
    intro h
    cases h
    obtain hw | hw := op.writes_eq g.alerts alerts
    · exact .inl hw
    · exact .inr (.inl ⟨tenantID, _, rfl, hcreate.trans (congrArg some hw.symm)⟩)
  | case17 tenantID a how who now =>
    rintro ⟨⟩
    obtain hw | hw := op.writes_eq g.alerts _
    · exact .inl hw
    · exact .inr (.inr (.inl ⟨tenantID, a, how, who, now, rfl, hw⟩))
  | case22 | case23 | case24 | case26 =>
    intro h
    cases h
    obtain hw | hw := op.writes_eq g.alerts _
    · exact .inl hw
    · exact .inr (.inr (.inr ⟨_, _, _, rfl, hw⟩))
  | case27 => rintro ⟨⟩
  | _ =>
    -- The other operations only read.
    intro h
    obtain ⟨rfl, -⟩ := Prod.mk.inj (Option.some.inj h)
    exact .inl rfl

theorem perform_evolves (h : perform e g c op = some (g', c')) : Evolves g.alerts g'.alerts := by
  obtain heq | ⟨tenantID, a, -, hcreate⟩ | ⟨tenantID, a, how, who, now, -, heq⟩ |
    ⟨tenantID, a, expected, -, heq⟩ := perform_alerts h
  · rw [heq]
    exact Evolves.refl _
  · exact evolves_createAlert hcreate
  · rw [heq]
    apply evolves_updateAlert
    cases how <;> rfl
  · rw [heq]
    exact evolves_advanceAlert expected

def Call.isCaller : Call → Bool
  | .listing | .loading _ _ _ | .exhausting _ _ _ | .leasing _ _ _ _ _ | .notifying _ _ _ _ _
  | .finishing _ _ _ _ _ => false
  | _ => true

@[simp] theorem isCaller_close (tenantID : String) (a : Alert) (how : Closure) (who : String)
    (now : Int) (again : Bool) : (close tenantID a how who now again).isCaller := by
  unfold close
  split <;> rfl

theorem perform_caller (hc : c.isCaller) (h : perform e g c op = some (g', c')) :
    g'.log = g.log ∧ c'.isCaller := by
  revert h
  fun_cases perform e g c op with
  | case18 | case19 | case20 | case21 | case22 | case23 | case24 | case25 | case26 => cases hc
  | case7 | case9 | case12 =>
    rintro ⟨⟩
    exact ⟨rfl, isCaller_close ..⟩
  | case3 tenantID a once failed | case15 tenantID a who rounds failed =>
    intro h
    obtain ⟨rfl, rfl⟩ := Prod.mk.inj (Option.some.inj h)
    refine ⟨rfl, ?_⟩
    simp only [failed]
    split <;> rfl
  | case4 tenantID a once failed | case16 tenantID a who rounds failed =>
    intro h
    cases h
    refine ⟨rfl, ?_⟩
    simp only [failed]
    split
    · rfl
    · split <;> rfl
  | case27 => rintro ⟨⟩
  | _ =>
    rintro ⟨⟩
    exact ⟨rfl, rfl⟩

end MeshsatHub.Escalation
