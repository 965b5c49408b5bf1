import MeshsatHub.Foundations.Interleaving

/-!
# LXMF messages and their claims

`deliver` claims an outgoing message, stores it as `sending`, sends it and stores the outcome;
`onMessage` claims a hash and stores the message. Claims are not given back. `drain` stores as
failed what is `sending` and was created two timeouts ago. Every query is by the message's key, so a
store is about one message.
-/

namespace MeshsatHub.Lxmfhub
open Runs List Interleaving

inductive State where
  | queued
  | sending
  | delivered
  | failed
  deriving DecidableEq

/-- A message's row and send claim, and the deliveries of it that drains have still to start. -/
structure Outgoing where
  state : State
  createdAt : Nat
  claimed : Bool
  due : Nat

/-- A `drain` up to `marking`, or a `deliver`. -/
inductive Sender where
  | listing
  | listed (queued : Bool)
  | marking (queued : Bool)
  | claiming
  | updating
  | sending
  | finishing (delivered : Bool)
  | ended (delivered : Bool)
  | returned
  deriving DecidableEq

/-- An operation on the store, the end of `Send`, or a stop of the replica. -/
inductive Op where
  | store (o : Outcome) (now : Nat)
  | send (delivered : Bool)
  | stop

def Outgoing.update (g : Outgoing) (o : Outcome) (state : State) : Outgoing :=
  if o.effective then { g with state } else g

def outcome (delivered : Bool) : State := if delivered then .delivered else .failed

/-- The second list of a drain has the message. -/
def Outgoing.stale (g : Outgoing) (timeout now : Nat) : Bool :=
  g.state = .sending && g.createdAt + 2 * timeout < now

variable (timeout : Nat) (g : Outgoing)

/-- One operation of `drain`, `deliver` or `finish`. -/
def Outgoing.perform : Sender → Op → Option (Outgoing × Sender)
  | .listing, .store o _ => some (g, if o.ok then .listed (g.state = .queued) else .returned)
  | .listed queued, .store o now =>
    if o.ok && g.stale timeout now then some (g, .marking queued)
    else some ({ g with due := g.due + queued.toNat }, .returned)
  | .marking queued, .store o _ =>
    some ({ g.update o .failed with due := g.due + queued.toNat }, .returned)
  | .claiming, .store o _ =>
    some ({ g with claimed := g.claimed || o.effective },
      if o.ok && !g.claimed then .updating else .returned)
  | .updating, .store o _ => some (g.update o .sending, if o.ok then .sending else .returned)
  | .sending, .send delivered => some (g, .finishing delivered)
  | .finishing delivered, .store o _ => some (g.update o (outcome delivered), .ended delivered)
  | _, .stop => some (g, .returned)
  | _, _ => none

inductive Start where
  | drain
  | deliver

def sends : Program Outgoing Sender Start Op where
  start
    | g, .drain => some (g, .listing)
    | g, .deliver => if g.due = 0 then none else some ({ g with due := g.due - 1 }, .claiming)
  perform := Outgoing.perform timeout

def Op.works : Op → Bool
  | .store o _ => o.ok
  | .send _ => true
  | .stop => false

/-- No operation fails. -/
def works : Event Start Op → Bool
  | .act _ op => op.works
  | _ => true

/-- A drain finds no message that is `sending` and was created two timeouts ago. -/
def Outgoing.timely : Sender → Op → Bool
  | .listed _, .store _ now => !g.stale timeout now
  | _, _ => true

def timely (timeout : Nat) (s : System Outgoing Sender) : Event Start Op → Bool
  | .act i op => s.calls[i]?.all fun l => s.shared.timely timeout l op
  | _ => true

def Sender.running : Sender → Bool
  | .updating | .sending | .finishing _ => true
  | _ => false

def Outgoing.Knows : Sender → Prop
  | .updating => g.claimed ∧ g.state = .queued
  | .sending | .finishing _ => g.claimed ∧ g.state = .sending
  | .ended delivered => g.claimed ∧ g.state = outcome delivered
  | .marking _ => False
  | _ => True

/-- The delivery has the claim. -/
def Sender.wins : Sender → Bool
  | .updating | .sending | .finishing _ | .ended _ => true
  | _ => false

def Apart (l m : Sender) : Prop := ¬(l.wins ∧ m.wins)

instance : Std.Symm Apart := ⟨fun _ _ h hboth => h ⟨hboth.2, hboth.1⟩⟩

abbrev SendInv := Inv (fun g : Outgoing => g.claimed = false → g.state = .queued) Outgoing.Knows
  Apart

variable {timeout createdAt : Nat} {g g' : Outgoing} {l m : Sender} {s t : System Outgoing Sender}

theorem Outgoing.Knows.kept (h : g.Knows m)
    (hsame : m.wins → g'.state = g.state ∧ g'.claimed = g.claimed) : g'.Knows m := by
  cases m <;> simp_all [Sender.wins, Outgoing.Knows]

theorem Outgoing.Knows.claimed (h : g.Knows m) (hm : m.wins) : g.claimed := by
  cases m <;> simp_all [Sender.wins, Outgoing.Knows]

/-- What an operation that works does: a call without the claim changes nothing that another one
relies on. -/
theorem Outgoing.perform_spec {op : Op} {l' : Sender} (hg : g.claimed = false → g.state = .queued)
    (hl : g.Knows l) (hworks : op.works) (htimely : g.timely timeout l op)
    (h : g.perform timeout l op = some (g', l')) :
    (g'.claimed = false → g'.state = .queued) ∧ g'.Knows l' ∧
      (l.wins ∨ g'.state = g.state ∧ (g.claimed → g'.claimed ∧ l'.wins = false)) := by
  cases op with
  | stop => cases hworks
  | send delivered =>
    cases l <;> cases h
    exact ⟨hg, hl, .inl rfl⟩
  | store o now =>
    obtain rfl : o = .done := by cases o <;> first | rfl | cases hworks
    cases l with
    | listing =>
      cases h
      exact ⟨hg, trivial, .inr ⟨rfl, fun hclaimed => ⟨hclaimed, rfl⟩⟩⟩
    | listed queued =>
      have hstale : g.stale timeout now = false := by simpa [Outgoing.timely] using htimely
      simp only [perform, hstale] at h
      cases h
      exact ⟨hg, trivial, .inr ⟨rfl, fun hclaimed => ⟨hclaimed, rfl⟩⟩⟩
    | claiming =>
      cases h
      cases hclaimed : g.claimed with
      | true => exact ⟨nofun, trivial, .inr ⟨rfl, fun _ => ⟨rfl, rfl⟩⟩⟩
      | false => exact ⟨nofun, ⟨rfl, hg hclaimed⟩, .inr ⟨rfl, nofun⟩⟩
    | updating | finishing delivered =>
      cases h
      exact ⟨fun hnot => absurd (hnot.symm.trans hl.1) Bool.false_ne_true, ⟨hl.1, rfl⟩, .inl rfl⟩
    | marking => exact hl.elim
    | sending | ended | returned => cases h

theorem SendInv.step {e : Event Start Op} (h : SendInv s) (hok : works e && timely timeout s e)
    (hstep : Interleaving.step (sends timeout) s e = some t) : SendInv t := by
  obtain ⟨hworks, htimely⟩ := Bool.and_eq_true_iff.1 hok
  obtain ⟨b, g, l, hstart⟩ | ⟨i, op, l, g, l', hi, hact⟩ := step_cases hstep
  · have hstart : (g.state = s.shared.state ∧ g.claimed = s.shared.claimed) ∧ g.Knows l ∧
        l.wins = false := by
      cases b <;> grind [sends, Outgoing.Knows, Sender.wins]
    obtain ⟨hsame, hl, hwins⟩ := hstart
    refine h.begun ?_ hl fun m _ hm => ⟨hm.kept fun _ => hsame, by simp [Apart, hwins]⟩
    rw [hsame.1, hsame.2]
    exact h.shared
  · rw [timely, hi] at htimely
    obtain ⟨hg, hl', hothers⟩ := Outgoing.perform_spec h.shared (h.call hi) hworks htimely hact
    refine h.acted hi hg hl' fun m _ hm hb => ?_
    by_cases hwins : m.wins
    · have hclaimed := hm.claimed hwins
      obtain hl | ⟨hstate, hkeeps⟩ := hothers
      · exact absurd ⟨hl, hwins⟩ hb
      · obtain ⟨hclaimed', hl'⟩ := hkeeps hclaimed
        exact ⟨hm.kept fun _ => ⟨hstate, hclaimed'.trans hclaimed.symm⟩, by simp [Apart, hl']⟩
    · exact ⟨hm.kept fun h => absurd h hwins, fun hboth => hwins hboth.2⟩

def queuedAt (createdAt : Nat) : System Outgoing Sender := ⟨⟨.queued, createdAt, false, 0⟩, []⟩

/-- While a message is being sent it is not stored as failed, and once that has ended its own
outcome is stored, if each drain that comes meanwhile finds it younger than two timeouts. -/
theorem outcome_stands (h : Reaches (step (sends timeout))
      (fun s e => works e && timely timeout s e) (queuedAt createdAt) s) :
    (∀ l ∈ s.calls, l.running → s.shared.state ≠ .failed) ∧
      ∀ delivered, .ended delivered ∈ s.calls → s.shared.state = outcome delivered := by
  have hinv : SendInv s := h.invariant (.nil fun _ => rfl) fun _ _ _ h hok hstep => h.step hok hstep
  constructor
  · intro l hl hrunning
    have hknows := hinv.calls l hl
    cases l <;> simp_all [Sender.running, Outgoing.Knows]
  · intro delivered hl
    exact (hinv.calls _ hl).2

def done {B : Type} (i now : Nat) : Event B Op := .act i (.store .done now)

/-- A message is delivered and met by a second drain. -/
theorem outcome_stands_delivered : ∃ s, Reaches (step (sends 30))
      (fun s e => works e && timely 30 s e) (queuedAt 0) s ∧ .ended true ∈ s.calls ∧
    (∀ l ∈ s.calls, l.running → s.shared.state ≠ .failed) ∧
      ∀ delivered, .ended delivered ∈ s.calls → s.shared.state = outcome delivered :=
  exists_reaches_and_of_decide [.start .drain, done 0 1, done 0 1, .start .deliver, done 1 1,
    done 1 1, .start .drain, done 2 60, done 2 60, .act 1 (.send true), done 1 61]
    (by decide +kernel) fun _ h => outcome_stands h

/-- A message waited in the queue. A drain lists it while it is sent, and stores it as failed after
it was delivered. -/
theorem outcome_replaced : ∃ s, Reaches (guarded (step (sends 30)) fun _ => works)
    (fun _ _ => True) (queuedAt 0) s ∧ .ended true ∈ s.calls ∧ s.shared.state = .failed :=
  exists_reaches_of_decide [.start .drain, done 0 90, done 0 90, .start .deliver, done 1 90,
    done 1 90, .start .drain, done 2 91, done 2 91, .act 1 (.send true), done 1 92, done 2 93]
    (by decide +kernel)

inductive Inbox where
  | absent
  | held
  | pruned
  deriving DecidableEq

structure Incoming where
  claimed : Bool
  inbox : Inbox

inductive Receiver where
  | claiming
  | inserting
  | pruning
  | returned
  deriving DecidableEq

/-- One operation of `onMessage`. -/
def Incoming.perform (g : Incoming) : Receiver → Op → Option (Incoming × Receiver)
  | .claiming, .store o _ =>
    some ({ g with claimed := g.claimed || o.effective },
      if o.ok && !g.claimed then .inserting else .returned)
  | .inserting, .store o _ =>
    some ({ g with inbox := if o.effective then .held else g.inbox },
      if o.ok then .pruning else .returned)
  | .pruning, .store o _ =>
    some ({ g with inbox := if o.effective && g.inbox = .held then .pruned else g.inbox },
      .returned)
  | _, .stop => some (g, .returned)
  | _, _ => none

/-- `onMessage` for the message, or for `another` one that may prune it. -/
def onMessage : Program Incoming Receiver Bool Op where
  start g another := some (g, if another then .pruning else .claiming)
  perform := Incoming.perform

/-- Nothing fails or stops between a claim that takes effect and the write after it. -/
def careful {G L B : Type} [DecidableEq L] (claiming writing : L) (s : System G L) :
    Event B Op → Bool
  | .act i op =>
    match s.calls[i]?, op with
    | some l, .store o _ => !(l = claiming && o = .unseen || l = writing && o = .lost)
    | some l, .stop => l ≠ writing
    | _, _ => true
  | _ => true

theorem updating_attended (h : Reaches (step (sends timeout))
      (fun s e => careful .claiming .updating s e) (queuedAt createdAt) s) :
    Attended (fun g (_ : Unit) => g.claimed ∧ g.state = .queued) (fun l _ => l = .updating) s := by
  refine h.invariant nofun fun s e t h hok hstep => ?_
  obtain ⟨b, g, l, hstart⟩ | ⟨i, op, l, g, l', hi, hact⟩ := step_cases hstep
  · refine h.begun fun _ hq => .inr ?_
    cases b <;> grind [sends]
  · refine h.acted hi fun _ hq => ?_
    simp only [careful, hi] at hok
    change s.shared.perform timeout l op = _ at hact
    rcases op with ⟨_ | _ | _, _⟩ | _ | _ <;> cases l <;>
      grind [Outgoing.perform, Outgoing.update, Outcome.ok, Outcome.effective, outcome]

theorem inserting_attended {s : System Incoming Receiver} (h : Reaches (step onMessage)
      (fun s e => careful .claiming .inserting s e) ⟨⟨false, .absent⟩, []⟩ s) :
    Attended (fun g (_ : Unit) => g.claimed ∧ g.inbox = .absent) (fun l _ => l = .inserting) s := by
  refine h.invariant nofun fun s e t h hok hstep => ?_
  obtain ⟨b, g, l, ⟨⟩⟩ | ⟨i, op, l, g, l', hi, hact⟩ := step_cases hstep
  · exact h.begun fun _ hq => .inr hq
  · refine h.acted hi fun _ hq => ?_
    simp only [careful, hi] at hok
    change s.shared.perform l op = _ at hact
    rcases op with ⟨_ | _ | _, _⟩ | _ | _ <;> cases l <;>
      grind [Incoming.perform, Outcome.ok, Outcome.effective]

/-- A queued message with its claim taken is in the hands of a delivery, and an incoming one is or
was in the inbox unless it is being handled, if nothing fails between a claim and its write. -/
theorem claims_attended {r : System Incoming Receiver}
    (hs : Reaches (step (sends timeout)) (fun s e => careful .claiming .updating s e)
      (queuedAt createdAt) s)
    (hr : Reaches (step onMessage) (fun s e => careful .claiming .inserting s e)
      ⟨⟨false, .absent⟩, []⟩ r) :
    (s.shared.claimed → s.shared.state = .queued → .updating ∈ s.calls) ∧
      (r.shared.claimed → .inserting ∉ r.calls → r.shared.inbox ≠ .absent) := by
  constructor
  · intro hclaimed hqueued
    obtain ⟨_, hl, rfl⟩ := updating_attended hs () ⟨hclaimed, hqueued⟩
    exact hl
  · intro hclaimed hnone habsent
    obtain ⟨_, hl, rfl⟩ := inserting_attended hr () ⟨hclaimed, habsent⟩
    exact hnone hl

/-- A message is claimed and about to be sent; an incoming one is stored, and pruned for another. -/
theorem claims_attended_updating : ∃ s, Reaches (step (sends 30))
      (fun s e => careful .claiming .updating s e) (queuedAt 0) s ∧
    (s.shared.claimed ∧ s.shared.state = .queued) ∧ ∃ r, Reaches (step onMessage)
      (fun s e => careful .claiming .inserting s e) ⟨⟨false, .absent⟩, []⟩ r ∧
    (r.shared.claimed ∧ r.calls = [.returned, .returned]) ∧
      (s.shared.claimed → s.shared.state = .queued → .updating ∈ s.calls) ∧
      (r.shared.claimed → .inserting ∉ r.calls → r.shared.inbox ≠ .absent) :=
  exists_reaches_and_of_decide [.start .drain, done 0 1, done 0 1, .start .deliver, done 1 1]
    (by decide +kernel) fun _ hs => exists_reaches_and_of_decide
      [.start false, done 0 1, done 0 1, .start true, done 0 1, done 1 2] (by decide +kernel)
      fun _ hr => claims_attended hs hr

/-- A write after a claim fails, for a queued message and for an incoming one. -/
theorem claims_stranded : (∃ s, Reaches (step (sends 30)) (fun _ _ => True) (queuedAt 0) s ∧
      s.shared.claimed ∧ s.shared.state = .queued ∧ s.calls = [.returned, .returned]) ∧
    ∃ r, Reaches (step onMessage) (fun _ _ => True) ⟨⟨false, .absent⟩, []⟩ r ∧
      r.shared.claimed ∧ r.calls = [.returned] ∧ r.shared.inbox = .absent :=
  ⟨exists_reaches_of_decide [.start .drain, done 0 1, done 0 1, .start .deliver, done 1 1,
      .act 1 (.store .lost 1)] (by decide +kernel),
    exists_reaches_of_decide [.start false, done 0 1, .act 0 (.store .lost 1)] (by decide +kernel)⟩

end MeshsatHub.Lxmfhub
