import MeshsatHub.Escalation.Leases

/-!
# Exclusive steps

Whether every tier and retry of an alert is notified once. It is in every run that is orderly, and
an alert which was closed stays so in any run.
-/

namespace MeshsatHub.Escalation
open Tables Interleaving Runs List
variable {e : Engine} {g : Store} {alerts : Alerts} {a : Alert} {tenantID : String}

theorem settles_refl (g : Store) (y : String) : Settles g g y :=
  ⟨rfl, rfl, fun r hat => ⟨r, hat, ⟨rfl, rfl⟩, fun _ => rfl⟩⟩

theorem settles_write {selects : Alert → Bool} (ha : a.state.isOpen = false) (y : String) :
    Settles g
      { g with
        alerts := g.alerts.write selects (a.written e.driver) (a.written_id e.driver) } y := by
  refine ⟨rfl, rfl, fun r hat => ?_⟩
  simp only [at_write, hat, Option.map_some]
  split
  · refine ⟨_, rfl, ⟨rfl, rfl⟩, fun hopen => ?_⟩
    have hclosed : a.state.isOpen := hopen
    rw [ha] at hclosed
    cases hclosed
  · exact ⟨r, rfl, ⟨rfl, rfl⟩, fun _ => rfl⟩

theorem settles_insert (h : createAlert e.driver g.alerts tenantID a = some alerts) (y : String) :
    Settles g { g with alerts := alerts } y := by
  refine ⟨rfl, rfl, fun r hat => ?_⟩
  obtain ⟨hnone, hafter⟩ := at_insert h
  have hy : y ≠ (a.inserted e.driver tenantID).id := by
    rintro rfl
    rw [hnone] at hat
    cases hat
  exact ⟨r, by rw [hafter, if_neg hy, hat], ⟨rfl, rfl⟩, fun _ => rfl⟩

theorem StoreInv.notifications_eq_nil (h : StoreInv e g) {y : String} (hy : g.alerts.at y = none) :
    notifications g.log y = [] := by
  rw [eq_nil_iff_forall_not_mem]
  intro p hp
  obtain ⟨en, hen, rfl, -⟩ := exists_of_mem_notifications hp
  obtain ⟨r, hr⟩ := h.known en hen
  rw [hy] at hr
  cases hr

theorem StoreInv.settles (h : StoreInv e g) (hsettles : ∀ y, Settles g ⟨alerts, g.log⟩ y)
    (hnew : ∀ y r, g.alerts.at y = none → alerts.at y = some r → r.retries = 0) :
    StoreInv e ⟨alerts, g.log⟩ := by
  refine ⟨?_, h.increasing, ?_⟩
  · intro en hen
    obtain ⟨r, hat⟩ := h.known en hen
    obtain ⟨r', hat', -⟩ := (hsettles en.id).row r hat
    exact ⟨r', hat'⟩
  · intro y r' hat'
    cases hat : g.alerts.at y with
    | some r => exact (h.rows y r hat).settles (hsettles y) hat hat'
    | none =>
      have hnil := h.notifications_eq_nil hat
      refine ⟨?_, fun _ => .inl (hnew y r' hat hat'), ?_⟩ <;> simp [hnil]

variable {s : System Store Call} {l l' : Call} {i : Nat} {touched : String → Prop}

theorem acted (h : LeaseInv e s) (hi : s.calls[i]? = some l) (hstore : StoreInv e g)
    (hmoves : Moves s.shared g touched) (hlocal : l'.Inv e g)
    (hothers : ∀ m : Call, Apart l m → m.Inv e s.shared →
      (∀ a, m.steps = some a → ¬touched a.id) ∧ Apart l' m) : LeaseInv e ⟨g, s.calls.set i l'⟩ := by
  apply h.acted hi hstore hlocal
  intro m hm hinv hapart
  obtain ⟨hsteps, hapart'⟩ := hothers m hapart hinv
  exact ⟨hinv.moved hmoves hsteps, hapart'⟩

theorem apart_of_steps_eq_none (h : l.steps = none) (m : Call) : Apart l m := by
  intro a b ha
  rw [h] at ha
  cases ha

theorem acted_quiet (h : LeaseInv e s) (hi : s.calls[i]? = some l)
    (hsettles : ∀ y, Settles s.shared ⟨alerts, s.shared.log⟩ y)
    (hnew : ∀ y r, s.shared.alerts.at y = none → alerts.at y = some r → r.retries = 0)
    (hlocal : l'.Inv e ⟨alerts, s.shared.log⟩) (hsteps : l'.steps = none) :
    LeaseInv e ⟨⟨alerts, s.shared.log⟩, s.calls.set i l'⟩ := by
  have hmoves : Moves s.shared ⟨alerts, s.shared.log⟩ fun _ => False :=
    ⟨fun a r hat hlisted => (hsettles a.id).listed hat hlisted, fun y _ => hsettles y⟩
  apply acted h hi (h.shared.settles hsettles hnew) hmoves hlocal
  exact fun m _ _ => ⟨fun _ _ => id, apart_of_steps_eq_none hsteps m⟩

theorem acted_read (h : LeaseInv e s) (hi : s.calls[i]? = some l) (hlocal : l'.Inv e s.shared)
    (hsteps : l'.steps = none) : LeaseInv e ⟨s.shared, s.calls.set i l'⟩ := by
  apply acted_quiet h hi (settles_refl s.shared) _ hlocal hsteps
  intro y r hnone hsome
  rw [hnone] at hsome
  cases hsome

variable {now : Int} {rest : List Alert}

theorem nextDue_inv (h : Held g now rest) : (nextDue now rest).Inv e g := by
  induction rest with
  | nil => trivial
  | cons a rest ih =>
    unfold nextDue
    split
    · exact ih fun b hb => h b (mem_cons_of_mem a hb)
    case isFalse hdue => exact ⟨Int.not_lt.1 hdue, h⟩

@[simp] theorem steps_nextDue (now : Int) (rest : List Alert) :
    (nextDue now rest).steps = none := by
  induction rest with
  | nil => rfl
  | cons a rest ih =>
    unfold nextDue
    split
    · exact ih
    · rfl

theorem Held.tail (h : Held g now (a :: rest)) :
    Held g now rest := fun b hb => h b (mem_cons_of_mem a hb)

theorem held_listAlerts
    (hok : ∀ r ∈ listAlerts g.alerts 100, underway r.id g.log → now < r.nextEscAt) :
    Held g now (listAlerts g.alerts 100) := by
  intro a ha hdue
  refine ⟨a, (at_of_mem_listAlerts ha).1, rfl, rfl, fun _ => le_refl _, fun _ _ => le_refl _, ?_⟩
  intro _ _ hbusy
  exact absurd (hok a ha hbusy) (Int.not_lt.2 hdue)

variable {r : Alert} {tiers : List EscalationTier} {tier : EscalationTier} {op : Op} {g' : Store}

theorem Driver.kept_lease (d : Driver) (time : Int) :
    d.kept (time + escalationLease) = d.kept time + escalationLease := by
  cases d <;> simp only [Driver.kept, Driver.unit, escalationLease] <;> omega

theorem nextEscAt_lt_lease (d : Driver) (hdue : a.nextEscAt ≤ now)
    (htime : r.nextEscAt = d.kept a.nextEscAt) : r.nextEscAt < d.kept (now + escalationLease) := by
  have hmono := d.kept_mono hdue
  have hpos : 0 < escalationLease := by decide
  rw [d.kept_lease, htime]
  omega

theorem Listed.not_underway (h : Listed g a r) (hopen : r.state.isOpen) (hrank : r.rank = a.rank)
    (htime : r.nextEscAt = e.driver.kept a.nextEscAt) : ¬underway a.id g.log := by
  intro hbusy
  have hlt := h.lease hopen hrank.symm hbusy
  have hle := e.driver.kept_le a.nextEscAt
  omega

structure Leases (e : Engine) (g g' : Store) (a r : Alert) (now : Int) : Prop where
  before : g.alerts.at a.id = some r
  row : g'.alerts.at a.id = some ((a.leased now).written e.driver r)
  others : ∀ y, y ≠ a.id → g'.alerts.at y = g.alerts.at y
  notified : ∀ y, notifications g'.log y = notifications g.log y
  busy : ∀ y, y ≠ a.id → underway y g'.log = underway y g.log
  known : ∀ en ∈ g'.log, en ∈ g.log ∨ en.id = a.id

theorem Leases.moves (h : Leases e g g' a r now) (hopen : r.state.isOpen) (hrank : r.rank = a.rank)
    (htime : r.nextEscAt = e.driver.kept a.nextEscAt) (hdue : a.nextEscAt ≤ now) :
    Moves g g' fun y => y = a.id := by
  have haside (y : String) (hy : y ≠ a.id) : Settles g g' y :=
    ⟨h.busy y hy, h.notified y, fun r' hat =>
      ⟨r', (h.others y hy).trans hat, ⟨rfl, rfl⟩, fun _ => rfl⟩⟩
  refine ⟨fun b r' hat hb => ?_, haside⟩
  by_cases hid : b.id = a.id
  · rw [hid] at hat ⊢
    cases h.before.symm.trans hat
    have hlease := nextEscAt_lt_lease e.driver hdue htime
    have hbehind (hsame : b.rank = a.rank) : b.nextEscAt < e.driver.kept (now + escalationLease) :=
      (hb.time hopen (hsame.trans hrank.symm)).trans_lt hlease
    exact ⟨_, h.row, hb.tenant, hb.chain, fun _ => (hb.rank hopen).trans_eq hrank,
      fun _ hsame => (hbehind hsame).le, fun _ hsame _ => hbehind hsame⟩
  · exact (haside b.id hid).listed hat hb

theorem Leases.storeInv (h : Leases e g g' a r now) (hstore : StoreInv e g) (hopen : r.state.isOpen)
    (hrank : r.rank = a.rank) (hfree : ¬underway a.id g.log) : StoreInv e g' := by
  have hexists (y : String) (r' : Alert) (hat : g.alerts.at y = some r') :
      ∃ r'', g'.alerts.at y = some r'' := by
    by_cases hy : y = a.id
    · exact ⟨_, hy ▸ h.row⟩
    · exact ⟨r', (h.others y hy).trans hat⟩
  refine ⟨?_, fun x => (h.notified x).symm ▸ hstore.increasing x, ?_⟩
  · intro en hen
    obtain hmem | hid := h.known en hen
    · obtain ⟨r', hat⟩ := hstore.known en hmem
      exact hexists en.id r' hat
    · exact ⟨_, hid ▸ h.row⟩
  · intro y r' hat'
    by_cases hy : y = a.id
    · subst hy
      cases h.row.symm.trans hat'
      have hrow := hstore.rows a.id r h.before
      refine ⟨?_, fun _ => hrank ▸ hrow.next hopen, fun _ p hp => ?_⟩
      · rw [h.notified]
        exact hrow.allowed
      · rw [h.notified] at hp
        obtain hlt | ⟨-, hbusy⟩ := hrow.behind hopen p hp
        · exact .inl (hrank ▸ hlt)
        · exact absurd hbusy hfree
    · rw [h.others y hy] at hat'
      have hrow := hstore.rows y r' hat'
      refine ⟨?_, hrow.next, ?_⟩
      · rw [h.notified]
        exact hrow.allowed
      · rw [h.notified, h.busy y hy]
        exact hrow.behind

section
variable (h : LeaseInv e s)
include h

theorem acted_lease (hi : s.calls[i]? = some (.leasing tiers tier a now rest))
    (hat : s.shared.alerts.at a.id = some r)
    (hadvances : r.advances e.driver a.tenantID a.id a.nextEscAt) (hrank : r.rank = a.rank)
    (hleases : Leases e s.shared g a r now) (hnext : l' = nextDue now rest ∨
      l' = .notifying tiers tier (a.leased now) now rest ∧ underway a.id g.log) :
    LeaseInv e ⟨g, s.calls.set i l'⟩ := by
  obtain ⟨hdue, hheld, hloaded, hcurrent⟩ := h.call hi
  obtain ⟨-, htime, hopen⟩ := advances_iff.1 hadvances
  obtain ⟨r', hat', hlisted⟩ := hheld a (by simp) hdue
  cases hat.symm.trans hat'
  have hfree := hlisted.not_underway (e := e) hopen hrank htime
  have hmoves := hleases.moves hopen hrank htime hdue
  -- a step on this alert would be under way
  have hothers (m : Call) (hm : m.Inv e s.shared) (b : Alert) (hb : m.steps = some b) :
      b.id ≠ a.id := by
    intro hid
    cases m with cases hb
    | notifying tiers tier c now rest =>
      obtain ⟨-, ⟨r', -, hstepping⟩, -⟩ := hm
      exact hfree (hid ▸ hstepping.busy)
    | finishing tiers tier c now rest =>
      obtain ⟨-, r', -, hstepping⟩ := hm
      exact hfree (hid ▸ hstepping.busy)
  have hrow := h.shared.rows a.id r hat
  apply acted h hi (hleases.storeInv h.shared hopen hrank hfree) hmoves
  · obtain rfl | ⟨rfl, hbusy⟩ := hnext
    · exact nextDue_inv (hheld.tail.moved hmoves)
    · refine ⟨hheld.tail.moved hmoves, ⟨_, hleases.row, hlisted.tenant, hlisted.chain, hloaded,
        hcurrent, ?_, hbusy, fun _ => ⟨rfl, rfl⟩⟩, ?_⟩
      · have hallowed := hrow.next hopen
        rw [hlisted.tenant, hlisted.chain, hrank] at hallowed
        exact hallowed
      · intro p hp
        rw [hleases.notified] at hp
        obtain hlt | ⟨-, hbusy⟩ := hrow.behind hopen p hp
        · exact hrank ▸ hlt
        · exact absurd hbusy hfree
  · intro m _ hm
    refine ⟨hothers m hm, fun b c hb hc hid => ?_⟩
    obtain rfl | ⟨rfl, -⟩ := hnext
    · rw [steps_nextDue] at hb
      cases hb
    · cases hb
      exact hothers m hm c hc hid.symm

theorem acted_notify (op : Op) (hi : s.calls[i]? = some (.notifying tiers tier a now rest)) :
    LeaseInv e ⟨⟨s.shared.alerts, s.shared.note .notified a op⟩,
      s.calls.set i (.finishing tiers tier a now rest)⟩ := by
  obtain ⟨hheld, ⟨r, hat, hstepping⟩, hbefore⟩ := h.call hi
  have hbusy (y : String) :
      underway y (s.shared.note .notified a op) = underway y s.shared.log := by
    simp only [Store.note, underway_snoc, Entry.leaves, ite_self]
  have hnotified (y : String) : notifications (s.shared.note .notified a op) y =
      if a.id = y then notifications s.shared.log y ++ [a.rank]
      else notifications s.shared.log y := by
    simp [Store.note, notifications_snoc, Entry.rank, Alert.rank]
  have haside (y : String) (hy : ¬y = a.id) :
      Settles s.shared ⟨s.shared.alerts, s.shared.note .notified a op⟩ y := by
    refine ⟨hbusy y, ?_, fun r hat => ⟨r, hat, ⟨rfl, rfl⟩, fun _ => rfl⟩⟩
    exact (hnotified y).trans (if_neg fun hid => hy hid.symm)
  have hmoves : Moves s.shared ⟨s.shared.alerts, s.shared.note .notified a op⟩
      fun y => y = a.id := by
    refine ⟨fun b r' hat' hb => ⟨r', hat', hb.tenant, hb.chain, hb.rank, hb.time, ?_⟩, haside⟩
    rw [hbusy]
    exact hb.lease
  refine acted h hi ⟨?_, ?_, ?_⟩ hmoves ?_ ?_
  · exact all_mem_snoc h.shared.known ⟨r, hat⟩
  · intro y
    rw [hnotified]
    split
    case isTrue hid =>
      rw [pairwise_append]
      refine ⟨h.shared.increasing y, pairwise_singleton _ _, ?_⟩
      intro p hp q hq
      obtain rfl := mem_singleton.1 hq
      exact hbefore p (hid ▸ hp)
    case isFalse => exact h.shared.increasing y
  · intro y r' hat'
    have hrow := h.shared.rows y r' hat'
    by_cases hy : y = a.id
    · subst hy
      cases hat.symm.trans hat'
      have hmem (p : Nat ×ₗ Nat) (hp : p ∈ notifications (s.shared.note .notified a op) a.id) :
          p ∈ notifications s.shared.log a.id ∨ p = a.rank := by
        rw [hnotified, if_pos rfl] at hp
        simpa using hp
      refine ⟨fun p hp => ?_, hrow.next, fun hopen p hp => ?_⟩
      · obtain hp | rfl := hmem p hp
        · exact hrow.allowed p hp
        · rw [hstepping.tenant, hstepping.chain]
          exact hstepping.allowed
      · rw [hbusy]
        obtain hp | rfl := hmem p hp
        · exact hrow.behind hopen p hp
        · exact .inr ⟨(hstepping.row hopen).1.symm, hstepping.busy⟩
    · exact hrow.settles (haside y hy) hat' hat'
  · refine ⟨hheld.moved hmoves, r, hat, hstepping.tenant, hstepping.chain, hstepping.loaded,
      hstepping.current, hstepping.allowed, ?_, hstepping.row⟩
    exact (hbusy a.id).trans hstepping.busy
  · exact fun m hapart _ => ⟨fun b hb hid => hapart a b rfl hb hid.symm, hapart⟩

omit h in
theorem notified_rank (now : Int) (hloaded : e.chains a.tenantID a.chainID = some tiers)
    (hcurrent : tiers[a.currentTier]? = some tier) :
    a.rank < (a.notified tiers tier now).rank ∧
      Allowed e a.tenantID a.chainID (a.notified tiers tier now).rank := by
  have htier (a' : Alert) (htier : a'.currentTier = a.currentTier + 1) (hretries : a'.retries = 0) :
      a.rank < a'.rank ∧ Allowed e a.tenantID a.chainID a'.rank := by
    refine ⟨Prod.Lex.toLex_lt_toLex.2 (.inl ?_), .inl hretries⟩
    omega
  unfold Alert.notified
  split
  · split <;> exact htier _ rfl rfl
  case isFalse hretries =>
    refine ⟨Prod.Lex.toLex_lt_toLex.2 (.inr ⟨rfl, Nat.lt_succ_self _⟩), .inr ?_⟩
    intro tiers' tier' hloaded' hcurrent'
    cases hloaded.symm.trans hloaded'
    cases hcurrent.symm.trans hcurrent'
    show ((a.retries + 1 : Nat) : Int) < tier.maxRetries
    omega

omit h in
@[simp] theorem notified_id : (a.notified tiers tier now).id = a.id := by
  unfold Alert.notified
  split
  · split <;> rfl
  · rfl

omit h in
theorem finish_row (now : Int) (hat : g.alerts.at a.id = some r)
    (hstepping : Stepping e g tiers tier a r) :
    ∃ r', (advanceAlert e.driver g.alerts a.tenantID (a.notified tiers tier now)
        a.nextEscAt).1.at a.id = some r' ∧ (r'.tenantID = r.tenantID ∧ r'.chainID = r.chainID) ∧
      (r'.state.isOpen →
        r.state.isOpen ∧ r'.rank = (a.notified tiers tier now).rank) := by
  cases hopen : r.state.isOpen with
  | true =>
    obtain ⟨-, htime⟩ := hstepping.row hopen
    have hnamed : r.named a.tenantID a.id := named_iff.2 ⟨key_of_at hat, .inr hstepping.tenant⟩
    have hadvances : r.advances e.driver a.tenantID (a.notified tiers tier now).id a.nextEscAt := by
      rw [notified_id]
      exact advances_iff.2 ⟨hnamed, htime, hopen⟩
    have hwritten := at_advanceAlert_of_advances (by rw [notified_id]; exact hat) hadvances
    rw [notified_id] at hwritten
    exact ⟨_, hwritten, ⟨rfl, rfl⟩, fun _ => ⟨rfl, rfl⟩⟩
  | false =>
    have hlost : (advanceAlert e.driver g.alerts a.tenantID (a.notified tiers tier now)
        a.nextEscAt).1.at a.id = g.alerts.at a.id := by
      apply at_advanceAlert_of_lost
      intro r' hat'
      rw [notified_id] at hat'
      cases hat.symm.trans hat'
      rw [Bool.eq_false_iff]
      intro hadvances
      rw [(advances_iff.1 hadvances).2.2] at hopen
      cases hopen
    refine ⟨r, hlost.trans hat, ⟨rfl, rfl⟩, fun hopen' => ?_⟩
    rw [hopen'] at hopen
    cases hopen

theorem acted_finish (op : Op) (hi : s.calls[i]? = some (.finishing tiers tier a now rest)) :
    LeaseInv e ⟨⟨(advanceAlert e.driver s.shared.alerts a.tenantID (a.notified tiers tier now)
      a.nextEscAt).1, s.shared.note .finished a op⟩, s.calls.set i (nextDue now rest)⟩ := by
  obtain ⟨hheld, r, hat, hstepping⟩ := h.call hi
  obtain ⟨hlater, hallowed⟩ := notified_rank now hstepping.loaded hstepping.current
  obtain ⟨r', hat', ⟨htenant, hchain⟩, hmoved⟩ := finish_row now hat hstepping
  have hothers (y : String) (hy : y ≠ a.id) : (advanceAlert e.driver s.shared.alerts a.tenantID
      (a.notified tiers tier now) a.nextEscAt).1.at y = s.shared.alerts.at y :=
    at_advanceAlert_ne (by rwa [notified_id])
  have hnotified (y : String) :
      notifications (s.shared.note .finished a op) y = notifications s.shared.log y := by
    simp [Store.note, notifications_snoc]
  have hbusy (y : String) (hy : y ≠ a.id) :
      underway y (s.shared.note .finished a op) = underway y s.shared.log := by
    rw [Store.note, underway_snoc]
    exact leaves_of_ne (fun hid => hy hid.symm) _
  have haside (y : String) (hy : y ≠ a.id) : Settles s.shared
      ⟨(advanceAlert e.driver s.shared.alerts a.tenantID (a.notified tiers tier now)
        a.nextEscAt).1, s.shared.note .finished a op⟩ y :=
    ⟨hbusy y hy, hnotified y, fun r hat => ⟨r, (hothers y hy).trans hat, ⟨rfl, rfl⟩, fun _ => rfl⟩⟩
  have hmoves : Moves s.shared
      ⟨(advanceAlert e.driver s.shared.alerts a.tenantID (a.notified tiers tier now)
        a.nextEscAt).1, s.shared.note .finished a op⟩ fun y => y = a.id := by
    refine ⟨fun b rb hatb hb => ?_, haside⟩
    by_cases hid : b.id = a.id
    · rw [hid] at hatb ⊢
      cases hat.symm.trans hatb
      -- what was listed is behind the tier and retry stored now
      have hbehind (hopen : r'.state.isOpen) : b.rank < r'.rank := by
        obtain ⟨hopen, hrank⟩ := hmoved hopen
        rw [hrank]
        exact (hb.rank hopen).trans_lt ((hstepping.row hopen).1 ▸ hlater)
      exact ⟨r', hat', htenant.trans hb.tenant, hchain.trans hb.chain,
        fun hopen => (hbehind hopen).le, fun hopen heq => absurd heq (hbehind hopen).ne,
        fun hopen heq => absurd heq (hbehind hopen).ne⟩
    · exact (haside b.id hid).listed hatb hb
  refine acted h hi ⟨?_, fun y => hnotified y ▸ h.shared.increasing y, ?_⟩ hmoves
    (nextDue_inv (hheld.moved hmoves)) ?_
  · intro en hen
    by_cases hid : en.id = a.id
    · exact ⟨r', hid ▸ hat'⟩
    · obtain hen | hen := mem_append.1 hen
      · obtain ⟨ren, hren⟩ := h.shared.known en hen
        exact ⟨ren, (hothers en.id hid).trans hren⟩
      · exact absurd (congrArg Entry.id (mem_singleton.1 hen)) hid
  · intro y ry hy
    by_cases hid : y = a.id
    · subst hid
      cases hat'.symm.trans hy
      have hrow := h.shared.rows a.id r hat
      refine ⟨?_, fun hopen => ?_, fun hopen p hp => .inl ?_⟩
      · rw [hnotified, htenant, hchain]
        exact hrow.allowed
      · rw [htenant, hchain, hstepping.tenant, hstepping.chain, (hmoved hopen).2]
        exact hallowed
      · obtain ⟨hopen, hrank⟩ := hmoved hopen
        rw [hnotified] at hp
        have hle : p ≤ a.rank := by
          rw [← (hstepping.row hopen).1]
          exact (hrow.behind hopen p hp).elim le_of_lt fun hp => hp.1.le
        exact hrank ▸ hle.trans_lt hlater
    · have hbefore : s.shared.alerts.at y = some ry := (hothers y hid).symm.trans hy
      exact (h.shared.rows y ry hbefore).settles (haside y hid) hbefore hy
  · exact fun m hapart _ => ⟨fun b hb hid => hapart a b rfl hb hid.symm,
      apart_of_steps_eq_none (steps_nextDue now rest) m⟩

variable {t : System Store Call}
variable {c c' : Call}

omit h in
theorem retries_of_createAlert (hinserts : c.inserts now = some (tenantID, a))
    (h : createAlert e.driver g.alerts tenantID a = some alerts) (y : String) (r : Alert)
    (hnone : g.alerts.at y = none) (hat : alerts.at y = some r) : r.retries = 0 := by
  have hretries : a.retries = 0 := by
    cases c with cases hinserts
    | creating tenantID a once => rfl
    | burying tenantID a who rounds => rfl
  rw [(at_insert h).2 y] at hat
  split at hat
  · cases hat
    exact hretries
  · rw [hnone] at hat
    cases hat

theorem perform_quiet (hi : s.calls[i]? = some c)
    (hperform : perform e s.shared c op = some (g, c')) (hlog : g.log = s.shared.log)
    (hcloses : ∀ a expected, c.advances = some (a, expected) → a.state.isOpen = false)
    (hlocal : (∀ y, Settles s.shared g y) → c'.Inv e g) (hsteps : c'.steps = none) :
    LeaseInv e ⟨g, s.calls.set i c'⟩ := by
  obtain ⟨alerts, log⟩ := g
  obtain rfl : log = s.shared.log := hlog
  have hwritten (a : Alert) (selects : Alert → Bool) (ha : a.state.isOpen = false)
      (halerts : alerts =
        s.shared.alerts.write selects (a.written e.driver) (a.written_id e.driver)) :
      LeaseInv e ⟨⟨alerts, s.shared.log⟩, s.calls.set i c'⟩ := by
    have hsettles (y : String) : Settles s.shared ⟨alerts, s.shared.log⟩ y := by
      rw [halerts]
      exact settles_write (e := e) ha y
    apply acted_quiet h hi hsettles _ (hlocal hsettles) hsteps
    intro y r hnone hat
    rw [show alerts.at y = none by rw [halerts, at_write, hnone]; rfl] at hat
    cases hat
  obtain heq | ⟨tenantID, a, hinserts, hcreate⟩ | ⟨tenantID, a, how, who, now, -, heq⟩ |
    ⟨tenantID, a, expected, hadvances, heq⟩ := perform_alerts hperform
  · obtain rfl : alerts = s.shared.alerts := heq
    exact acted_read h hi (hlocal (settles_refl s.shared)) hsteps
  · have hsettles := settles_insert hcreate
    exact acted_quiet h hi hsettles (retries_of_createAlert hinserts hcreate) (hlocal hsettles)
      hsteps
  · exact hwritten _ _ (by cases how <;> rfl) heq
  · exact hwritten _ _ (hcloses a expected hadvances) heq

omit h in
theorem rank_of_orderly (hi : s.calls[i]? = some (.leasing tiers tier a now rest))
    (hok : orderly e s (.act i op)) (hat : s.shared.alerts.at a.id = some r)
    (htime : r.nextEscAt = e.driver.kept a.nextEscAt) : r.rank = a.rank := by
  rw [orderly, hi] at hok
  have hrow := all_eq_true.1 hok r (mem_of_at hat)
  simpa [key_of_at hat, htime] using hrow

omit h in
theorem leases_of_advances (op : Op) {log : List Entry} (hat : g.alerts.at a.id = some r)
    (hadvances : r.advances e.driver a.tenantID a.id a.nextEscAt)
    (hlog : log = g.log ∨ log = g.note .leased a op) :
    Leases e g ⟨(advanceAlert e.driver g.alerts a.tenantID (a.leased now) a.nextEscAt).1, log⟩
      a r now := by
  refine ⟨hat, at_advanceAlert_of_advances (a := a.leased now) hat hadvances,
    fun y hy => at_advanceAlert_ne hy, ?_, ?_, ?_⟩
  · intro y
    obtain rfl | rfl := hlog
    · rfl
    · simp [Store.note, notifications_snoc]
  · intro y hy
    obtain rfl | rfl := hlog
    · rfl
    · simp only [Store.note, underway_snoc]
      exact leaves_of_ne (fun hid => hy hid.symm) _
  · intro en hen
    obtain rfl | rfl := hlog
    · exact .inl hen
    · obtain hen | hen := mem_append.1 hen
      · exact .inl hen
      · exact .inr (congrArg Entry.id (mem_singleton.1 hen))

theorem acted_leasing (hi : s.calls[i]? = some (.leasing tiers tier a now rest))
    (hok : orderly e s (.act i op))
    (hperform : perform e s.shared (.leasing tiers tier a now rest) op = some (g, c')) :
    LeaseInv e ⟨g, s.calls.set i c'⟩ := by
  obtain ⟨-, hheld, -⟩ := h.call hi
  simp only [perform] at hperform
  cases hwon : (advanceAlert e.driver s.shared.alerts a.tenantID (a.leased now) a.nextEscAt).2 with
  | true =>
    obtain ⟨r, hat, hadvances⟩ := advanceAlert_won.1 hwon
    have hrank := rank_of_orderly hi hok hat (advances_iff.1 hadvances).2.1
    cases hout : op.outcome with
      simp only [hout, hwon, Op.writes, Outcome.ok, Outcome.effective] at hperform
    | done =>
      cases hperform
      have hbusy : underway a.id (s.shared.note .leased a op) := by
        simp [Store.note, Entry.leaves]
      exact acted_lease h hi hat hadvances hrank
        (leases_of_advances op hat hadvances (.inr rfl)) (.inr ⟨rfl, hbusy⟩)
    | unseen =>
      cases hperform
      exact acted_lease h hi hat hadvances hrank
        (leases_of_advances op hat hadvances (.inl rfl)) (.inl rfl)
    | lost =>
      cases hperform
      exact acted_read h hi (nextDue_inv hheld.tail) (steps_nextDue now rest)
  | false =>
    rw [hwon, Bool.and_false] at hperform
    cases hperform
    have hsame (y : String) : (op.writes s.shared.alerts (advanceAlert e.driver s.shared.alerts
        a.tenantID (a.leased now) a.nextEscAt).1).at y = s.shared.alerts.at y := by
      rcases op.writes_eq s.shared.alerts (advanceAlert e.driver s.shared.alerts
        a.tenantID (a.leased now) a.nextEscAt).1 with hw | hw
      · rw [hw]
      · rw [hw]
        apply at_advanceAlert_of_lost
        intro r hat
        rw [Bool.eq_false_iff]
        intro hadvances
        rw [advanceAlert_won.2 ⟨r, hat, hadvances⟩] at hwon
        cases hwon
    have hsettles (y : String) : Settles s.shared ⟨op.writes s.shared.alerts (advanceAlert
        e.driver s.shared.alerts a.tenantID (a.leased now) a.nextEscAt).1, s.shared.log⟩ y :=
      ⟨rfl, rfl, fun r hat => ⟨r, (hsame y).trans hat, ⟨rfl, rfl⟩, fun _ => rfl⟩⟩
    apply acted_quiet h hi hsettles
    · intro y r hnone hat
      rw [hsame, hnone] at hat
      cases hat
    · apply nextDue_inv
      intro b hb hdue
      obtain ⟨r, hat, hlisted⟩ := hheld.tail b hb hdue
      exact (hsettles b.id).listed hat hlisted
    · exact steps_nextDue now rest

omit h in
theorem caller_inv (hc : c.isCaller) (g : Store) :
    c.Inv e g ∧ c.steps = none ∧ c.advances = none := by
  cases c with
  | listing | loading a now rest | exhausting a now rest | leasing tiers tier a now rest
  | notifying tiers tier a now rest | finishing tiers tier a now rest => cases hc
  | _ => exact ⟨trivial, rfl, rfl⟩

theorem acted_caller (hi : s.calls[i]? = some c) (hc : c.isCaller)
    (hperform : perform e s.shared c op = some (g, c')) : LeaseInv e ⟨g, s.calls.set i c'⟩ := by
  obtain ⟨hlog, hc'⟩ := perform_caller hc hperform
  obtain ⟨hlocal, hsteps, -⟩ := caller_inv (e := e) hc' g
  refine perform_quiet h hi hperform hlog ?_ (fun _ => hlocal) hsteps
  intro a expected hadvances
  rw [(caller_inv (e := e) hc g).2.2] at hadvances
  cases hadvances

theorem perform_inv (hi : s.calls[i]? = some c) (hok : orderly e s (.act i op))
    (hperform : perform e s.shared c op = some (g, c')) : LeaseInv e ⟨g, s.calls.set i c'⟩ := by
  have hinv := h.call hi
  cases c with
  | leasing tiers tier a now rest => exact acted_leasing h hi hok hperform
  | notifying tiers tier a now rest =>
    cases hperform
    exact acted_notify h op hi
  | finishing tiers tier a now rest =>
    rw [orderly, hi] at hok
    have hdone : op.outcome = .done := by simpa using hok
    cases hperform
    rw [Op.writes, hdone]
    exact acted_finish h op hi
  | listing =>
    rw [orderly, hi] at hok
    cases hperform
    split
    · refine acted_read h hi (nextDue_inv (held_listAlerts ?_)) (steps_nextDue _ _)
      intro r hr hbusy
      simpa [hbusy] using all_eq_true.1 hok r hr
    · exact acted_read h hi trivial rfl
  | loading a now rest =>
    simp only [perform] at hperform
    split at hperform
    · cases hperform
      exact acted_read h hi hinv rfl
    case h_2 tiers hloaded =>
      split at hperform
      · cases hperform
        exact acted_read h hi hinv rfl
      case h_2 tier hcurrent =>
        cases hperform
        have hloaded : e.chains a.tenantID a.chainID = some tiers := by
          unfold Op.reads at hloaded
          split at hloaded
          · exact hloaded
          · cases hloaded
        exact acted_read h hi ⟨hinv.1, hinv.2, hloaded, hcurrent⟩ rfl
  | exhausting a now rest =>
    have hlog : g.log = s.shared.log := by
      cases hperform
      rfl
    obtain rfl : c' = nextDue now rest := by
      cases hperform
      rfl
    apply perform_quiet h hi hperform hlog
    · intro b expected hadvances
      cases hadvances
      rfl
    · intro hsettles
      apply nextDue_inv
      intro b hb hdue
      obtain ⟨r, hat, hlisted⟩ := hinv.2.tail b hb hdue
      exact (hsettles b.id).listed hat hlisted
    · exact steps_nextDue now rest
  | _ => exact acted_caller h hi rfl hperform

theorem step_inv {ev : Event Request Op} (hok : orderly e s ev)
    (hstep : step (program e) s ev = some t) : LeaseInv e t := by
  obtain ⟨b, g, l, hstart⟩ | ⟨i, op, l, g, l', hi, hop⟩ := step_cases hstep
  · cases hstart
    have hbegin : b.begin.Inv e s.shared ∧ b.begin.steps = none := by
      cases b with
      | triggerOnce tenantID alert | close tenantID alert who =>
        simp only [Request.begin]
        split <;> exact ⟨trivial, rfl⟩
      | _ => exact ⟨trivial, rfl⟩
    apply h.begun h.shared hbegin.1
    exact fun m _ hm => ⟨hm, Std.Symm.symm _ _ (apart_of_steps_eq_none hbegin.2 m)⟩
  · exact perform_inv h hi hok hop

end

theorem initial_inv : LeaseInv e initial :=
  Interleaving.Inv.nil
    { known := nofun
      increasing := fun _ => Pairwise.nil
      rows := fun _ _ hat => absurd hat (by simp) }

theorem countP_tier_le {n k : Nat} {l : List (Nat ×ₗ Nat)} (hinc : l.Pairwise (· < ·))
    (hbound : ∀ p ∈ l, (ofLex p).1 = n → (ofLex p).2 < k) :
    l.countP (fun p => (ofLex p).1 = n) ≤ k := by
  rw [countP_eq_length_filter, ← length_map (fun p => (ofLex p).2),
    ← length_range (n := k)]
  apply Subperm.length_le
  apply subperm_of_subset
  · rw [Nodup, pairwise_map]
    apply (hinc.filter _).imp_of_mem
    intro p q hp hq hlt heq
    have hpn : (ofLex p).1 = n := by simpa using (mem_filter.1 hp).2
    have hqn : (ofLex q).1 = n := by simpa using (mem_filter.1 hq).2
    have hsame : p = q := Prod.ext (hpn.trans hqn.symm) heq
    exact hlt.ne hsame
  · intro m hm
    obtain ⟨p, hp, rfl⟩ := mem_map.1 hm
    obtain ⟨hmem, htier⟩ := mem_filter.1 hp
    exact mem_range.2 (hbound p hmem (by simpa using htier))

theorem StoreInv.exclusive (h : StoreInv e g) : Exclusive e g := by
  refine ⟨h.increasing, ?_⟩
  intro x r tiers n tier hat hloaded htier
  have hcount : (notifications g.log x).countP (fun p => (ofLex p).1 = n) ≤
      (max 1 tier.maxRetries).toNat := by
    apply countP_tier_le (h.increasing x)
    intro p hp hn
    obtain hzero | hretry := (h.rows x r hat).allowed p hp
    · omega
    · have hlt := hretry tiers tier hloaded (hn ▸ htier)
      omega
  omega

theorem perform_leases {x : String} (h : perform e g c op = some (g', c'))
    (hat : g.alerts.at x = some r) (hclosed : r.state.isOpen = false) :
    leases g'.log x = leases g.log x := by
  revert h
  fun_cases perform e g c op with
  | case23 tiers tier a now rest advance alerts hwon =>
    intro h
    cases h
    obtain ⟨r', hat', hadvances⟩ := advanceAlert_won.1 (Bool.and_eq_true_iff.1 hwon).2
    refine leases_snoc (.inr ?_)
    rintro rfl
    cases hat.symm.trans hat'
    rw [(advances_iff.1 hadvances).2.2] at hclosed
    cases hclosed
  | case25 | case26 =>
    intro h
    cases h
    exact leases_snoc (.inl (by simp))
  | case27 => rintro ⟨⟩
  | _ =>
    intro h
    obtain ⟨rfl, -⟩ := Prod.mk.inj (Option.some.inj h)
    rfl

theorem closed_for_good (e : Engine) (s : System Store Call) : ClosedForGood e s := by
  intro t ht x r hat hclosed
  induction ht with
  | refl => exact ⟨⟨r, hat, hclosed⟩, rfl⟩
  | tail ev _ _ hstep ih =>
    obtain ⟨⟨r', hat', hclosed'⟩, hleases⟩ := ih
    obtain ⟨b, g, l, hstart⟩ | ⟨i, op, l, g, l', hi, hop⟩ := step_cases hstep
    · cases hstart
      exact ⟨⟨r', hat', hclosed'⟩, hleases⟩
    · obtain ⟨r'', hat'', -, hstays⟩ := perform_evolves hop x r' hat'
      exact ⟨⟨r'', hat'', hstays hclosed'⟩, (perform_leases hop hat' hclosed').trans hleases⟩

/-- In every orderly run the notifications of an alert go up in tier and retry, with as
many for a tier as it allows; and an alert that is closed stays closed without another
lease, whatever follows. -/
theorem exclusive_steps (e : Engine) {s : System Store Call}
    (h : Reaches (step (program e)) (fun s ev => orderly e s ev = true) initial s) :
    Exclusive e s.shared ∧ ClosedForGood e s := by
  have hinv : LeaseInv e s :=
    h.invariant initial_inv fun _ _ _ hs hok hstep => step_inv hs hok hstep
  exact ⟨hinv.shared.exclusive, closed_for_good e s⟩

def sosAlert (id : String) : Alert where
  id := id
  tenantID := "acme"
  chainID := "on-call"
  deviceIMEI := "300234010753370"
  type := "sos"
  detail := "SOS from bridge b1 via sbd"
  state := .triggered
  currentTier := 0
  retries := 0
  ackedBy := ""
  ackedAt := none
  nextEscAt := 0
  createdAt := 0
  updatedAt := 0

def onCall (driver : Driver) (tiers : List EscalationTier) : Engine :=
  ⟨driver, fun tenantID chainID =>
    if tenantID = "acme" ∧ chainID = "on-call" then some tiers else none⟩

/-- An operation that is done at a time in milliseconds. -/
def Op.doneAt (ms : Int) : Op := ⟨ms * 1000000, .done⟩

/-- Two replicas list the alert, one of them leases it; the next step is taken by the
other one, and the alert is acknowledged during that. -/
def shared : List (Event Request Op) :=
  [.start (.trigger "acme" (sosAlert "a")), .act 0 (.doneAt 1000),
    .start .processAlerts, .start .processAlerts,
    .act 1 (.doneAt 5000), .act 2 (.doneAt 5100),
    .act 1 (.doneAt 5200), .act 2 (.doneAt 5200),
    .act 1 (.doneAt 5300), .act 2 (.doneAt 5400),
    .act 1 (.doneAt 6000), .act 1 (.doneAt 7000),
    .start .processAlerts, .act 3 (.doneAt 15100), .act 3 (.doneAt 15200), .act 3 (.doneAt 15300),
    .start (.acknowledge "acme" "a" "ops"), .act 4 (.doneAt 15400),
    .act 3 (.doneAt 16000), .act 4 (.doneAt 16100), .act 3 (.doneAt 17000)]

theorem exclusive_steps_shared : ∃ s, Reaches (step (program (onCall .postgres [⟨60, 3⟩])))
        (fun s ev => orderly (onCall .postgres [⟨60, 3⟩]) s ev = true) initial s ∧
      notifications s.shared.log "a" = [toLex (0, 0), toLex (0, 1)] ∧
      Exclusive (onCall .postgres [⟨60, 3⟩]) s.shared ∧
      ClosedForGood (onCall .postgres [⟨60, 3⟩]) s := by
  exact exists_reaches_and_of_decide shared (by decide +kernel) fun _ hs => exclusive_steps _ hs

/-- The clock readings of a run, in its order. -/
def readings (events : List (Event Request Op)) : List Int :=
  events.filterMap fun
    | .start _ => none
    | .act _ op => some op.now

/-- From any lease on an alert to any end of a step on it, no more than a lease passes. -/
def short (log : List Entry) : Bool :=
  log.all fun en => log.all fun en' =>
    en.kind != .leased || en'.kind != .finished || en.id != en'.id ||
      decide (en'.time ≤ en.time + escalationLease)

/-- A pass over two alerts: the notification of the first one takes two minutes all but a
second, so that the lease on the second one, which counts from the listing, is over
when another replica lists the alerts. -/
def staleReading : List (Event Request Op) :=
  [.start (.trigger "acme" (sosAlert "a")), .act 0 (.doneAt 1000),
    .start (.trigger "acme" (sosAlert "b")), .act 1 (.doneAt 2000),
    .start .processAlerts, .act 2 (.doneAt 10000),
    .act 2 (.doneAt 10000), .act 2 (.doneAt 10000), .act 2 (.doneAt 129000),
    .act 2 (.doneAt 129000),
    .act 2 (.doneAt 129000), .act 2 (.doneAt 129000),
    .start .processAlerts, .act 3 (.doneAt 130000), .act 3 (.doneAt 130000),
    .act 3 (.doneAt 130000),
    .act 2 (.doneAt 131000), .act 3 (.doneAt 131000), .act 2 (.doneAt 132000),
    .act 3 (.doneAt 132000)]

/-- A tier without a wait in a store that keeps seconds: after the first step, the time
stored is again the one that the other replica has listed. -/
def timeComesBack : List (Event Request Op) :=
  [.start (.trigger "acme" (sosAlert "a")), .act 0 (.doneAt 5200),
    .start .processAlerts, .start .processAlerts, .act 1 (.doneAt 5900), .act 2 (.doneAt 5900),
    .act 1 (.doneAt 5900), .act 1 (.doneAt 5900), .act 1 (.doneAt 6500), .act 1 (.doneAt 6500),
    .act 2 (.doneAt 6600), .act 2 (.doneAt 6600), .act 2 (.doneAt 7000)]

/-- On one clock, and with steps no longer than a lease, a tier and retry is notified
twice. -/
theorem step_taken_twice : ((readings staleReading).Pairwise (· ≤ ·) ∧
      ∃ s, Reaches (step (program (onCall .postgres [⟨600, 1⟩, ⟨600, 1⟩]))) (fun _ _ => True)
          initial s ∧
        short s.shared.log = true ∧
        notifications s.shared.log "a" = [toLex (0, 0), toLex (0, 0)] ∧
        ¬Exclusive (onCall .postgres [⟨600, 1⟩, ⟨600, 1⟩]) s.shared) ∧
    (readings timeComesBack).Pairwise (· ≤ ·) ∧
      ∃ s, Reaches (step (program (onCall .sqlite [⟨0, 2⟩]))) (fun _ _ => True) initial s ∧
        short s.shared.log = true ∧
        notifications s.shared.log "a" = [toLex (0, 0), toLex (0, 0)] ∧
        ¬Exclusive (onCall .sqlite [⟨0, 2⟩]) s.shared := by
  have hfound (e : Engine) (events : List (Event Request Op))
      (h : (replay (step (program e)) initial events).map
          (fun s => (short s.shared.log, notifications s.shared.log "a")) =
        some (true, [toLex (0, 0), toLex (0, 0)])) :
      ∃ s, Reaches (step (program e)) (fun _ _ => True) initial s ∧ short s.shared.log ∧
        notifications s.shared.log "a" = [toLex (0, 0), toLex (0, 0)] ∧
        ¬Exclusive e s.shared := by
    obtain ⟨s, hs, hview⟩ := exists_reaches_of_replay h
    obtain ⟨hshort, hlog⟩ := Prod.mk.inj hview
    refine ⟨s, hs, hshort, hlog, fun hexclusive => ?_⟩
    have hinc := hexclusive.increasing "a"
    rw [hlog] at hinc
    exact absurd hinc (by decide)
  exact ⟨⟨by decide, hfound _ staleReading (by decide +kernel)⟩, by decide,
    hfound _ timeComesBack (by decide +kernel)⟩

end MeshsatHub.Escalation
