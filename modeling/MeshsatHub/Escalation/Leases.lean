import MeshsatHub.Escalation.Engine

/-!
# Leases on alerts

A step on an alert is under way from its lease to the compare-and-set that ends it. Another replica
comes in after a listing that finds the lease over too early, or where `next_esc_at` comes back to a
value listed with an earlier tier or retry. `orderly` excludes the two.
-/

namespace MeshsatHub.Escalation
open Tables Interleaving Runs List

section

def Alert.rank (a : Alert) : Nat ×ₗ Nat := toLex (a.currentTier, a.retries)

def Entry.rank (en : Entry) : Nat ×ₗ Nat := toLex (en.tier, en.retry)

/-- The tiers and retries of an alert that were notified, in that order. -/
def notifications (log : List Entry) (x : String) : List (Nat ×ₗ Nat) :=
  (log.filter fun en => en.kind = .notified ∧ en.id = x).map Entry.rank

def leases (log : List Entry) (x : String) : List Entry :=
  log.filter fun en => en.kind = .leased ∧ en.id = x

def Entry.leaves (en : Entry) (x : String) (busy : Bool) : Bool :=
  if en.id = x then
    match en.kind with
    | .leased => true
    | .notified => busy
    | .finished => false
  else busy

/-- A step on the alert is under way. -/
def underway (x : String) (log : List Entry) : Bool :=
  log.foldl (fun busy en => en.leaves x busy) false

/-- Notifications go up in tier and retry, so that none is repeated, and a tier has as
many of them as its retries, or one. -/
structure Exclusive (e : Engine) (g : Store) : Prop where
  increasing : ∀ x, (notifications g.log x).Pairwise (· < ·)
  bounded : ∀ x r tiers n tier, g.alerts.at x = some r →
    e.chains r.tenantID r.chainID = some tiers →
    tiers[n]? = some tier →
    ((notifications g.log x).countP (fun p => (ofLex p).1 = n) : Int) ≤ max 1 tier.maxRetries

def ClosedForGood (e : Engine) (s : System Store Call) : Prop :=
  ∀ t, Reaches (step (program e)) (fun _ _ => True) s t →
    ∀ x r, s.shared.alerts.at x = some r → r.state.isOpen = false →
      (∃ r', t.shared.alerts.at x = some r' ∧ r'.state.isOpen = false) ∧
        leases t.shared.log x = leases s.shared.log x

/-- A listing finds no lease over whose step is under way; the row that a lease finds by
its time has the tier and the retry that were listed; and the end of a step is written. -/
def orderly (e : Engine) (s : System Store Call) : Event Request Op → Bool
  | .start _ => true
  | .act i op =>
    match s.calls[i]? with
    | some .listing =>
      (listAlerts s.shared.alerts 100).all fun r =>
        !underway r.id s.shared.log || decide (op.now < r.nextEscAt)
    | some (.leasing _ _ a _ _) =>
      s.shared.alerts.rows.all fun r =>
        r.id != a.id || r.nextEscAt != e.driver.kept a.nextEscAt || r.rank == a.rank
    | some (.finishing _ _ _ _ _) => op.outcome == .done
    | _ => true

variable {log : List Entry} {en : Entry} {x : String}

@[simp] theorem underway_snoc : underway x (log ++ [en]) = en.leaves x (underway x log) := by
  simp [underway]

theorem leaves_of_ne (h : en.id ≠ x) (busy : Bool) : en.leaves x busy = busy := if_neg h

theorem notifications_snoc : notifications (log ++ [en]) x =
      if en.kind = .notified ∧ en.id = x then notifications log x ++ [en.rank]
      else notifications log x := by
  unfold notifications
  split
  case isTrue h => simp [h]
  case isFalse h => simp [h]

theorem leases_snoc (h : en.kind ≠ .leased ∨ en.id ≠ x) :
    leases (log ++ [en]) x = leases log x := by
  have hnot : ¬(en.kind = .leased ∧ en.id = x) := by
    rintro ⟨hkind, hid⟩
    exact h.elim (fun h => h hkind) (fun h => h hid)
  simp [leases, filter_append, hnot]

theorem exists_of_mem_notifications {p : Nat ×ₗ Nat} (h : p ∈ notifications log x) :
    ∃ en ∈ log, en.id = x ∧ en.rank = p := by
  obtain ⟨en, hen, hrank⟩ := mem_map.1 h
  obtain ⟨hmem, hcond⟩ := mem_filter.1 hen
  exact ⟨en, hmem, (of_decide_eq_true hcond).2, hrank⟩

variable (e : Engine)

/-- A retry is the first one, or one that the tier has. -/
def Allowed (tenantID chainID : String) (p : Nat ×ₗ Nat) : Prop :=
  (ofLex p).2 = 0 ∨ ∀ tiers tier, e.chains tenantID chainID = some tiers →
    tiers[(ofLex p).1]? = some tier → ((ofLex p).2 : Int) < tier.maxRetries

/-- What was notified of an alert is behind the tier and retry stored, or is at them
while the step is under way. -/
structure RowInv (g : Store) (x : String) (r : Alert) : Prop where
  allowed : ∀ p ∈ notifications g.log x, Allowed e r.tenantID r.chainID p
  next : r.state.isOpen = true → Allowed e r.tenantID r.chainID r.rank
  behind : r.state.isOpen = true → ∀ p ∈ notifications g.log x,
    p < r.rank ∨ p = r.rank ∧ underway x g.log = true

structure StoreInv (g : Store) : Prop where
  known : ∀ en ∈ g.log, ∃ r, g.alerts.at en.id = some r
  increasing : ∀ x, (notifications g.log x).Pairwise (· < ·)
  rows : ∀ x r, g.alerts.at x = some r → RowInv e g x r

structure Listed (g : Store) (a r : Alert) : Prop where
  tenant : r.tenantID = a.tenantID
  chain : r.chainID = a.chainID
  rank : r.state.isOpen = true → a.rank ≤ r.rank
  time : r.state.isOpen = true → a.rank = r.rank → a.nextEscAt ≤ r.nextEscAt
  lease : r.state.isOpen = true → a.rank = r.rank → underway a.id g.log = true →
    a.nextEscAt < r.nextEscAt

def Held (g : Store) (now : Int) (l : List Alert) : Prop :=
  ∀ a ∈ l, a.nextEscAt ≤ now → ∃ r, g.alerts.at a.id = some r ∧ Listed g a r

structure Stepping (g : Store) (tiers : List EscalationTier) (tier : EscalationTier) (a r : Alert) :
    Prop where
  tenant : r.tenantID = a.tenantID
  chain : r.chainID = a.chainID
  loaded : e.chains a.tenantID a.chainID = some tiers
  current : tiers[a.currentTier]? = some tier
  allowed : Allowed e a.tenantID a.chainID a.rank
  busy : underway a.id g.log = true
  row : r.state.isOpen = true → r.rank = a.rank ∧ r.nextEscAt = e.driver.kept a.nextEscAt

def Call.Inv (g : Store) : Call → Prop
  | .loading a now rest | .exhausting a now rest => a.nextEscAt ≤ now ∧ Held g now (a :: rest)
  | .leasing tiers tier a now rest =>
    a.nextEscAt ≤ now ∧ Held g now (a :: rest) ∧ e.chains a.tenantID a.chainID = some tiers ∧
      tiers[a.currentTier]? = some tier
  | .notifying tiers tier a now rest =>
    Held g now rest ∧ (∃ r, g.alerts.at a.id = some r ∧ Stepping e g tiers tier a r) ∧
      ∀ p ∈ notifications g.log a.id, p < a.rank
  | .finishing tiers tier a now rest =>
    Held g now rest ∧ ∃ r, g.alerts.at a.id = some r ∧ Stepping e g tiers tier a r
  | _ => True

def Call.steps : Call → Option Alert
  | .notifying _ _ a _ _ | .finishing _ _ a _ _ => some a
  | _ => none

/-- Two calls have no step under way on the same alert. -/
def Apart (l m : Call) : Prop :=
  ∀ a b, l.steps = some a → m.steps = some b → a.id ≠ b.id

instance : Std.Symm Apart := ⟨fun _ _ h a b ha hb heq => h b a hb ha heq.symm⟩

/-- What holds in the runs that are orderly. -/
abbrev LeaseInv (s : System Store Call) : Prop := Inv (StoreInv e) (fun g c => c.Inv e g) Apart s

end

variable {e : Engine} {g g' : Store} {a r : Alert} {y : String} {touched : String → Prop}

/-- An alert's row is left or closed, and nothing is recorded of it. -/
structure Settles (g g' : Store) (y : String) : Prop where
  steps : underway y g'.log = underway y g.log
  notified : notifications g'.log y = notifications g.log y
  row : ∀ r, g.alerts.at y = some r → ∃ r', g'.alerts.at y = some r' ∧
    (r'.tenantID = r.tenantID ∧ r'.chainID = r.chainID) ∧ (r'.state.isOpen = true → r' = r)

structure Moves (g g' : Store) (touched : String → Prop) : Prop where
  listed : ∀ a r, g.alerts.at a.id = some r → Listed g a r →
    ∃ r', g'.alerts.at a.id = some r' ∧ Listed g' a r'
  aside : ∀ y, ¬touched y → Settles g g' y

theorem Settles.listed (h : Settles g g' a.id) (hat : g.alerts.at a.id = some r)
    (hlisted : Listed g a r) : ∃ r', g'.alerts.at a.id = some r' ∧ Listed g' a r' := by
  obtain ⟨r', hat', ⟨htenant, hchain⟩, hsame⟩ := h.row r hat
  refine ⟨r', hat', htenant.trans hlisted.tenant, hchain.trans hlisted.chain, ?_, ?_, ?_⟩
  · intro hopen
    obtain rfl := hsame hopen
    exact hlisted.rank hopen
  · intro hopen
    obtain rfl := hsame hopen
    exact hlisted.time hopen
  · intro hopen
    obtain rfl := hsame hopen
    rw [h.steps]
    exact hlisted.lease hopen

theorem Settles.stepping {tiers : List EscalationTier} {tier : EscalationTier}
    (h : Settles g g' a.id) (hat : g.alerts.at a.id = some r)
    (hstepping : Stepping e g tiers tier a r) :
    ∃ r', g'.alerts.at a.id = some r' ∧ Stepping e g' tiers tier a r' := by
  obtain ⟨r', hat', ⟨htenant, hchain⟩, hsame⟩ := h.row r hat
  refine ⟨r', hat', htenant.trans hstepping.tenant, hchain.trans hstepping.chain, hstepping.loaded,
    hstepping.current, hstepping.allowed, h.steps ▸ hstepping.busy, fun hopen => ?_⟩
  obtain rfl := hsame hopen
  exact hstepping.row hopen

theorem Held.moved {now : Int} {l : List Alert} (h : Held g now l) (hmoves : Moves g g' touched) :
    Held g' now l := by
  intro a ha hdue
  obtain ⟨r, hat, hlisted⟩ := h a ha hdue
  exact hmoves.listed a r hat hlisted

theorem Call.Inv.moved {c : Call} (h : c.Inv e g) (hmoves : Moves g g' touched)
    (hsteps : ∀ a, c.steps = some a → ¬touched a.id) : c.Inv e g' := by
  cases c with
  | loading a now rest | exhausting a now rest => exact ⟨h.1, h.2.moved hmoves⟩
  | leasing tiers tier a now rest => exact ⟨h.1, h.2.1.moved hmoves, h.2.2⟩
  | notifying tiers tier a now rest =>
    obtain ⟨hheld, ⟨r, hat, hstepping⟩, hbefore⟩ := h
    have hsettles := hmoves.aside a.id (hsteps a rfl)
    refine ⟨hheld.moved hmoves, hsettles.stepping hat hstepping, ?_⟩
    rw [hsettles.notified]
    exact hbefore
  | finishing tiers tier a now rest =>
    obtain ⟨hheld, r, hat, hstepping⟩ := h
    exact ⟨hheld.moved hmoves, (hmoves.aside a.id (hsteps a rfl)).stepping hat hstepping⟩
  | _ => exact h

theorem RowInv.settles {r' : Alert} (h : RowInv e g y r) (hsettles : Settles g g' y)
    (hat : g.alerts.at y = some r) (hat' : g'.alerts.at y = some r') : RowInv e g' y r' := by
  obtain ⟨r'', hat'', ⟨htenant, hchain⟩, hsame⟩ := hsettles.row r hat
  cases hat''.symm.trans hat'
  refine ⟨?_, ?_, ?_⟩
  · rw [hsettles.notified, htenant, hchain]
    exact h.allowed
  · intro hopen
    obtain rfl := hsame hopen
    exact h.next hopen
  · intro hopen
    obtain rfl := hsame hopen
    rw [hsettles.notified, hsettles.steps]
    exact h.behind hopen

end MeshsatHub.Escalation
