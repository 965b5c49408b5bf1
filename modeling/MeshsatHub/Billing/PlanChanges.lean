import MeshsatHub.Stripe.Deliveries

/-!
# Plan changes beside the background jobs

The lapse job warns or lapses each tenant from the copy it has listed; a refund and a Stripe event
read the tenant, change the copy and write it. `UpdateTenant` writes every column, so a write undoes
whatever was stored since. The columns that neither a job nor an event sets are one value. No
operation fails.
-/

namespace MeshsatHub.Billing.Plans
open Interleaving Runs Strings Stripe List
variable {σ : Type*}

structure Row (σ : Type*) extends Tenant where
  deletedAt : Option Int
  settings : σ
  deriving DecidableEq

structure LapseJob where
  hasMail : Bool
  warnAt : Int
  /-- By the ids of the tenant and of its owner. -/
  ownerEmail : String → String → String
  toLower : String → String

variable (j : LapseJob)

def LapseJob.normalise (plan : String) : String :=
  if j.toLower (trimSpace plan) = "" then free else j.toLower (trimSpace plan)

/-- What `warn` writes for a plan that is still to end. -/
def LapseJob.warn (now ends : Int) (t : Row σ) : Option (Row σ) :=
  if !j.hasMail || j.warnAt ≤ 0 || j.normalise t.plan = free || t.deletedAt.isSome
      || t.id = defaultTenantID || j.warnAt < ends - now
      || t.lapseWarnedAt.any (ends ≤ ·) || j.ownerEmail t.id t.ownerUserID = "" then none
  else some { t with lapseWarnedAt := some now }

/-- What `Once` writes for a tenant that it has listed. -/
def LapseJob.visit (now : Int) (t : Row σ) : Option (Row σ) :=
  match t.planExpiresAt with
  | none => none
  | some ends =>
    if now < ends then j.warn now ends t
    else if t.deletedAt.isSome || t.id = defaultTenantID then none
    else if j.normalise t.plan = free then some { t with planExpiresAt := none }
    else some { t with plan := free, planExpiresAt := none }

def reversePlan (r : Refund) (receipt : Receipt) (t : Row σ) : Option (Row σ) :=
  if receipt.plan = donationPlan || r.amountCents < receipt.amountCents then none
  else t.planExpiresAt.map fun ends => { t with planExpiresAt := some (ends - period) }

inductive Change where
  | event (ev : Stripe.Event) (now : Int) (fresh : String)
  | refund (r : Refund) (receipt : Receipt)

def Change.applied (h : Handler) (t : Row σ) : Change → Option (Row σ)
  | .event ev now fresh => (h.work ev now fresh (.tenant t.toTenant)).2.findSome? fun
    | .updateTenant t' => some { t with toTenant := t' }
    | _ => none
  | .refund r receipt => reversePlan r receipt t

structure Entry (σ : Type*) where
  row : Row σ
  /-- The plan and its end, as an event or a refund last stored them. -/
  granted : Option (String × Int)
  /-- The deletion and the settings, as they were last chosen. -/
  chosen : Option Int × σ

structure Tenants (σ : Type*) where
  entries : List (Entry σ)
  clock : Int

inductive Call (σ : Type*) where
  | listing (now : Int)
  | walking (now : Int) (todo : List (Row σ))
  | reading (tenantID : String) (change : Change)
  | writing (change : Change) (copy : Row σ)
  | returned

inductive Request (σ : Type*) where
  | once
  | change (tenantID : String) (change : Change)
  /-- Somebody chooses other settings, or deletes the tenant. -/
  | choose (tenantID : String) (chosen : Option Int × σ)
  | wait (seconds : Nat)

structure Setup where
  job : LapseJob
  handler : Handler

def Entry.choose (tenantID : String) (chosen : Option Int × σ) (e : Entry σ) : Entry σ :=
  if e.row.id = tenantID then
    { e with row := { e.row with deletedAt := chosen.1, settings := chosen.2 }, chosen }
  else e

def Entry.updateTenant (lasting : Bool) (t : Row σ) (e : Entry σ) : Entry σ :=
  if e.row.id = t.id then
    { e with
      row := t
      granted := if lasting then t.planExpiresAt.map (t.plan, ·) else e.granted }
  else e

variable (g : Tenants σ)

def Tenants.write (lasting : Bool) : Option (Row σ) → Tenants σ
  | none => g
  | some t => { g with entries := g.entries.map (Entry.updateTenant lasting t) }

def start : Request σ → Option (Tenants σ × Call σ)
  | .once => some (g, .listing g.clock)
  | .change tenantID change => some (g, .reading tenantID change)
  | .choose tenantID chosen =>
    some ({ g with entries := g.entries.map (Entry.choose tenantID chosen) }, .returned)
  | .wait seconds => some ({ g with clock := g.clock + seconds }, .returned)

variable (u : Setup)

def perform (g : Tenants σ) (l : Call σ) (_ : Unit) : Option (Tenants σ × Call σ) :=
  match l with
  | .listing now => some (g, .walking now (g.entries.map (·.row)))
  | .walking _ [] => some (g, .returned)
  | .walking now (t :: todo) => some (g.write false (u.job.visit now t), .walking now todo)
  | .reading tenantID change =>
    match g.entries.find? (·.row.id = tenantID) with
    | none => some (g, .returned)
    | some e => some (g, .writing change e.row)
  | .writing change copy => some (g.write true (change.applied u.handler copy), .returned)
  | .returned => none

def hub : Program (Tenants σ) (Call σ) (Request σ) Unit := ⟨start, perform u⟩

def found (rows : List (Row σ)) (clock : Int) : System (Tenants σ) (Call σ) :=
  ⟨⟨rows.map fun t => ⟨t, none, t.deletedAt, t.settings⟩, clock⟩, []⟩

def Call.pending : Call σ → Option (Row σ × Row σ)
  | .walking now (t :: _) => (u.job.visit now t).map (t, ·)
  | .writing change copy => (change.applied u.handler copy).map (copy, ·)
  | _ => none

/-- Whether the row that a step overwrites is still the one that was read. -/
def unchanged [DecidableEq σ] (u : Setup) (s : System (Tenants σ) (Call σ)) :
    Interleaving.Event (Request σ) Unit → Bool
  | .act i _ => (s.calls[i]?.bind (Call.pending u)).all fun (copy, t) =>
    s.shared.entries.all fun e => e.row.id = t.id → e.row = copy
  | .start _ => true

structure Entry.Kept (clock : Int) (e : Entry σ) : Prop where
  plan : ∀ p ∈ e.granted, clock < p.2 → e.row.plan = p.1 ∧ e.row.planExpiresAt = some p.2
  settings : (e.row.deletedAt, e.row.settings) = e.chosen

def Call.Begun : Call σ → Prop
  | .listing now | .walking now _ => now ≤ g.clock
  | _ => True

variable {u : Setup} {s : System (Tenants σ) (Call σ)} {t t' : Row σ} {l : Call σ} {h : Handler}

theorem LapseJob.visit_spec {j : LapseJob} {now : Int} (h : j.visit now t = some t') :
    (t'.deletedAt, t'.settings) = (t.deletedAt, t.settings) ∧
      (t'.plan = t.plan ∧ t'.planExpiresAt = t.planExpiresAt ∨
        ∃ ends ≤ now, t.planExpiresAt = some ends) := by
  revert h
  fun_cases LapseJob.visit j now t with
  | case1 | case3 => rintro ⟨⟩
  | case2 ends hends hnow =>
    rw [LapseJob.warn]
    split
    · rintro ⟨⟩
    · rintro ⟨⟩
      exact ⟨rfl, .inl ⟨rfl, rfl⟩⟩
  | case4 ends hends hnow | case5 ends hends hnow =>
    rintro ⟨⟩
    exact ⟨rfl, .inr ⟨ends, Int.not_lt.1 hnow, hends⟩⟩

theorem Change.applied_settings {c : Change} (ht : c.applied h t = some t') :
    (t'.deletedAt, t'.settings) = (t.deletedAt, t.settings) := by
  cases c with
  | event ev now fresh =>
    obtain ⟨w, -, hw⟩ := exists_of_findSome?_eq_some ht
    cases w with cases hw
    | updateTenant t'' => rfl
  | refund r receipt =>
    simp only [Change.applied, reversePlan] at ht
    split at ht
    · cases ht
    · obtain ⟨ends, -, rfl⟩ := Option.map_eq_some_iff.1 ht
      rfl

theorem kept_write {g : Tenants σ} (h : ∀ e ∈ g.entries, e.Kept g.clock) {lasting : Bool}
    (hsettings : (t'.deletedAt, t'.settings) = (t.deletedAt, t.settings))
    (hplan : lasting = false → t'.plan = t.plan ∧ t'.planExpiresAt = t.planExpiresAt ∨
      ∃ ends ≤ g.clock, t.planExpiresAt = some ends)
    (hsame : ∀ e ∈ g.entries, e.row.id = t'.id → e.row = t) :
    ∀ e ∈ (g.write lasting (some t')).entries, e.Kept g.clock := by
  intro e he
  obtain ⟨e, hmem, rfl⟩ := mem_map.1 he
  rw [Entry.updateTenant]
  split
  · next hid =>
    have hkept := h e hmem
    obtain rfl := hsame e hmem hid
    refine ⟨?_, hsettings.trans hkept.settings⟩
    intro p hp hclock
    cases lasting with
    | true =>
      obtain ⟨ends, hends, rfl⟩ := Option.map_eq_some_iff.1 hp
      exact ⟨rfl, hends⟩
    | false =>
      obtain ⟨hstands, hexpires⟩ := hkept.plan p hp hclock
      obtain ⟨hsame, hend⟩ | ⟨ends, hle, hends⟩ := hplan rfl
      · exact ⟨hsame.trans hstands, hend.trans hexpires⟩
      · -- the plan that is lapsed would still have time to run
        have := Option.some.inj (hends.symm.trans hexpires)
        omega
  · exact h e hmem

theorem perform_kept {g g' : Tenants σ} {l' : Call σ}
    (h : ∀ e ∈ g.entries, e.Kept g.clock) (hl : l.Begun g)
    (hsame : ∀ copy t, l.pending u = some (copy, t) →
      ∀ e ∈ g.entries, e.row.id = t.id → e.row = copy)
    (hperform : perform u g l () = some (g', l')) :
    g'.clock = g.clock ∧ (∀ e ∈ g'.entries, e.Kept g.clock) ∧ l'.Begun g := by
  revert hperform
  fun_cases perform u g l () with rintro ⟨⟩
  | case1 | case2 | case4 | case5 => exact ⟨rfl, h, by first | exact hl | trivial⟩
  | case3 now t todo =>
    cases hvisit : u.job.visit now t with
    | none => exact ⟨rfl, h, hl⟩
    | some t' =>
      obtain ⟨hsettings, hplan⟩ := LapseJob.visit_spec hvisit
      refine ⟨rfl, kept_write h hsettings (fun _ => ?_) (hsame t t' ?_), hl⟩
      · exact hplan.imp_right fun ⟨ends, hle, hends⟩ => ⟨ends, Int.le_trans hle hl, hends⟩
      · simp [Call.pending, hvisit]
  | case6 change copy =>
    cases happlied : change.applied u.handler copy with
    | none => exact ⟨rfl, h, trivial⟩
    | some t' =>
      have hsettings := Change.applied_settings happlied
      refine ⟨rfl, kept_write h hsettings nofun (hsame copy t' ?_), trivial⟩
      simp [Call.pending, happlied]

theorem start_kept {g g' : Tenants σ} {b : Request σ}
    (h : ∀ e ∈ g.entries, e.Kept g.clock) (hstart : start g b = some (g', l)) :
    g.clock ≤ g'.clock ∧ (∀ e ∈ g'.entries, e.Kept g'.clock) ∧ l.Begun g' := by
  cases b with cases hstart
  | once => exact ⟨Int.le_refl _, h, Int.le_refl _⟩
  | change => exact ⟨Int.le_refl _, h, trivial⟩
  | choose tenantID chosen =>
    refine ⟨Int.le_refl _, ?_, trivial⟩
    intro e he
    obtain ⟨e, hmem, rfl⟩ := mem_map.1 he
    rw [Entry.choose]
    split
    · exact ⟨(h e hmem).plan, rfl⟩
    · exact h e hmem
  | wait seconds =>
    refine ⟨Int.le_add_of_nonneg_right (Int.natCast_nonneg _), fun e he => ⟨?_, ?_⟩, trivial⟩
    · exact fun p hp hclock => (h e he).plan p hp (by simp only at hclock; omega)
    · exact (h e he).settings

theorem Call.Begun.mono {g g' : Tenants σ} (h : l.Begun g)
    (hclock : g.clock ≤ g'.clock) : l.Begun g' := by
  cases l with
  | listing | walking => exact Int.le_trans h hclock
  | _ => trivial

/-- In every run in which no row is overwritten that has changed since it was read, the plans
stored last stand until they end, and the settings are those chosen last. -/
theorem plan_changes_kept [DecidableEq σ] {rows : List (Row σ)} {clock : Int}
    (h : Reaches (step (hub u)) (fun s e => unchanged u s e = true) (found rows clock) s) :
    ∀ e ∈ s.shared.entries, e.Kept s.shared.clock := by
  have hinv : Inv (fun g => ∀ e ∈ g.entries, e.Kept g.clock) Call.Begun (fun _ _ => True) s := by
    refine h.invariant (.nil ?_) ?_
    · intro e he
      obtain ⟨t, -, rfl⟩ := mem_map.1 he
      exact ⟨nofun, rfl⟩
    intro s e t h hsame hstep
    obtain ⟨b, g, l, hstart⟩ | ⟨i, _, l, g, l', hi, hperform⟩ := step_cases hstep
    · obtain ⟨hclock, hkept, hl⟩ := start_kept h.shared hstart
      exact h.begun hkept hl fun m _ hm => ⟨hm.mono hclock, trivial⟩
    · have hl := h.call hi
      have hrow (copy t : Row σ) (hpending : l.pending u = some (copy, t)) :
          ∀ e ∈ s.shared.entries, e.row.id = t.id → e.row = copy := by
        simpa only [unchanged, hi, Option.bind_some, hpending, Option.all_some, all_eq_true,
          decide_eq_true_eq] using hsame
      obtain ⟨hclock, hkept, hl'⟩ := perform_kept h.shared hl hrow hperform
      have hle := Int.le_of_eq hclock.symm
      exact h.acted hi (hclock ▸ hkept) (hl'.mono hle) fun m _ hm _ => ⟨hm.mono hle, trivial⟩
  exact hinv.shared

/-- One paid tenant whose plan ends at 100, a job that sends no mail and one known price. -/
def shop : Setup where
  job := ⟨false, 0, fun _ _ => "", id⟩
  handler := ⟨[("p", "crew")], false, false, fun _ => "", id, fun _ => true⟩

def paid : Row String := ⟨⟨"t", "crew", some 100, "", "", "", "", none, ""⟩, none, "old"⟩

def renewal : Change := .event ⟨"e", 0, .subscription false
  ⟨"sub", "", "active", 0, [], [⟨"p", 1000⟩]⟩⟩ 100 ""

/-- A renewal that is stored before a pass lists the tenants. -/
theorem plan_changes_kept_renewed :
    ∃ s, Reaches (step (hub shop)) (fun s e => unchanged shop s e = true) (found [paid] 100) s ∧
      s.shared.entries.map (·.row.plan) = ["crew"] ∧
      ∀ e ∈ s.shared.entries, e.Kept s.shared.clock := by
  exact exists_reaches_and_of_decide
    [.start (.change "t" renewal), .act 0 (), .act 0 (), .start .once,
      .start (.choose "t" (none, "new")), .act 1 (), .act 1 ()]
    (by decide +kernel) fun _ hs => plan_changes_kept hs

/-- A pass lists the tenant; the plan is renewed and a setting changed; then the pass lapses the
tenant from its copy. -/
theorem renewal_undone : ∃ s, Reaches (step (hub shop)) (fun _ _ => True) (found [paid] 100) s ∧
      ∃ e ∈ s.shared.entries, e.granted = some ("crew", 1000 + grace) ∧
        s.shared.clock < 1000 + grace ∧ e.row.plan = free ∧ e.row.planExpiresAt = none ∧
        e.chosen.2 = "new" ∧ e.row.settings = "old" := by
  exact exists_reaches_of_decide
    [.start .once, .act 0 (), .start (.change "t" renewal), .act 1 (), .act 1 (),
      .start (.choose "t" (none, "new")), .act 0 ()]
    (by decide +kernel)

section Warnings

/-- Whether a pass mails a warning to a tenant that it has listed. -/
def LapseJob.mails (now : Int) (t : Row σ) : Bool :=
  t.planExpiresAt.any fun ends => now < ends && (j.warn now ends t).isSome

def LapseJob.pass (t : Row σ) (now : Int) : Row σ := (j.visit now t).getD t

/-- When the passes at these times mail a warning. -/
def LapseJob.warnings (j : LapseJob) : Row σ → List Int → List Int
  | _, [] => []
  | t, now :: later =>
    if j.mails now t then now :: j.warnings (j.pass t now) later
    else j.warnings (j.pass t now) later

def LapseJob.inWindow (ends now : Int) : Bool :=
  now < ends && ends - now ≤ j.warnAt

@[mk_iff]
structure LapseJob.Warns (j : LapseJob) (t : Row σ) : Prop where
  mail : j.hasMail = true
  window : 0 < j.warnAt
  plan : j.normalise t.plan ≠ free
  kept : t.deletedAt = none
  customer : t.id ≠ defaultTenantID
  owner : j.ownerEmail t.id t.ownerUserID ≠ ""

variable {j : LapseJob} {t : Row σ} {ends now : Int}

/-- Every pass in the window of the end warns the tenant. -/
def LapseJob.Due (j : LapseJob) (ends : Int) (t : Row σ) : Prop :=
  j.Warns t ∧ ∀ w ∈ t.lapseWarnedAt, w < ends

theorem LapseJob.mails_iff (hends : t.planExpiresAt = some ends) :
    j.mails now t = true ↔ j.inWindow ends now = true ∧ j.Due ends t := by
  simp only [mails, hends, Option.any_some, warn, Bool.and_eq_true, decide_eq_true_eq, inWindow,
    Due, warns_iff, Bool.or_eq_true, apply_ite Option.isSome, Option.isSome_none,
    Option.isSome_some, Bool.if_false_left, not_or, Option.any_eq_true, not_exists, not_and,
    Bool.and_true, Bool.not_eq_true', decide_eq_false_iff_not, Option.mem_def, Int.not_le,
    Int.not_lt, Bool.not_eq_true, Bool.not_eq_false, Option.isSome_eq_false_iff,
    Option.isNone_iff_eq_none]
  tauto

theorem LapseJob.pass_of_mails (hends : t.planExpiresAt = some ends) (h : j.mails now t = true) :
    j.pass t now = { t with lapseWarnedAt := some now } := by
  simp only [mails, hends, Option.any_some, Bool.and_eq_true, decide_eq_true_eq] at h
  have hvisit : j.visit now t = j.warn now ends t := by simp only [visit, hends, if_pos h.1]
  rw [pass, hvisit]
  revert h
  fun_cases warn j now ends t with
  | case1 => nofun
  | case2 => exact fun _ => rfl

theorem LapseJob.pass_of_not_mails (hends : t.planExpiresAt = some ends)
    (h : ¬j.mails now t = true) :
    j.pass t now = t ∨ ends ≤ now ∧ (j.pass t now).planExpiresAt = none := by
  simp only [mails, hends, Option.any_some, Bool.and_eq_true, decide_eq_true_eq, not_and,
    Option.not_isSome_iff_eq_none] at h
  unfold pass
  fun_cases visit j now t with
  | case1 | case3 => exact .inl rfl
  | case2 ends' hends' hnow =>
    cases hends'.symm.trans hends
    rw [h hnow, Option.getD_none]
    exact .inl rfl
  | case4 ends' hends' hnow | case5 ends' hends' hnow =>
    cases hends'.symm.trans hends
    exact .inr ⟨Int.not_lt.1 hnow, rfl⟩

theorem LapseJob.warnings_of_none (j : LapseJob) (times : List Int)
    (hends : t.planExpiresAt = none) : j.warnings t times = [] := by
  induction times generalizing t with
  | nil => rfl
  | cons now later ih =>
    have hpass : j.pass t now = t := by simp [pass, visit, hends]
    simp [warnings, mails, hends, hpass, ih hends]

theorem LapseJob.warnings_of_not_due (hends : t.planExpiresAt = some ends) (h : ¬j.Due ends t)
    (times : List Int) : j.warnings t times = [] := by
  induction times with
  | nil => rfl
  | cons now later ih =>
    have hquiet : ¬j.mails now t = true := fun hmails => h ((mails_iff hends).1 hmails).2
    rw [warnings, if_neg hquiet]
    obtain hsame | ⟨-, hnone⟩ := pass_of_not_mails hends hquiet
    · rw [hsame, ih]
    · exact j.warnings_of_none later hnone

theorem LapseJob.pass_of_due (hends : t.planExpiresAt = some ends) (hdue : j.Due ends t)
    (hpast : ¬now < ends) : (j.pass t now).planExpiresAt = none := by
  simp [pass, visit, hends, hpast, hdue.1.plan, hdue.1.kept, hdue.1.customer]

/-- The first pass after the end lapses the plan, and no later one warns. -/
theorem LapseJob.warnings_of_due (hends : t.planExpiresAt = some ends) (hdue : j.Due ends t)
    (times : List Int) :
    j.warnings t times = (times.takeWhile (· < ends)).filter (j.inWindow ends) := by
  induction times generalizing t with
  | nil => rfl
  | cons now later ih =>
    rw [warnings]
    by_cases hnow : now < ends
    · rw [takeWhile_cons_of_pos (by simpa using hnow)]
      by_cases hmails : j.mails now t = true
      · rw [if_pos hmails, filter_cons_of_pos ((mails_iff hends).1 hmails).1,
          pass_of_mails hends hmails]
        obtain ⟨⟨hmail, hwindow, hplan, hkept, hcustomer, howner⟩, -⟩ := hdue
        exact congrArg _ (ih hends ⟨⟨hmail, hwindow, hplan, hkept, hcustomer, howner⟩,
          by rintro _ ⟨⟩; exact hnow⟩)
      · rw [if_neg hmails, filter_cons_of_neg fun h => hmails ((mails_iff hends).2 ⟨h, hdue⟩),
          (pass_of_not_mails hends hmails).resolve_right fun h => Int.not_le.2 hnow h.1,
          ih hends hdue]
    · have hquiet : ¬j.mails now t = true := by simp [mails, hends, hnow]
      rw [if_neg hquiet, j.warnings_of_none later (pass_of_due hends hdue hnow),
        takeWhile_cons_of_neg (by simpa using hnow), filter_nil]

theorem renewed_spec {id fresh : String} {created at' : Int} {sub : Subscription}
    {t' : Row σ} (hlive : sub.live)
    (hrenewed : Change.applied h t (.event ⟨id, created, .subscription false sub⟩ at' fresh) =
      some t') : t'.planExpiresAt = some (sub.expires at') ∧ t'.lapseWarnedAt = none := by
  simp only [Change.applied, Handler.work, Handler.onSubscription, hlive, Bool.not_true,
    Bool.or_false, Bool.false_eq_true, if_false] at hrenewed
  split at hrenewed
  · cases hrenewed
  · cases hrenewed
    exact ⟨rfl, rfl⟩

/-- At most one warning is mailed for the end of a plan exactly if at most one pass is in its
window, up to the first pass after the end, or the tenant is not warned at all; and after a renewal
the first pass in the window of the new end mails one. -/
theorem lapse_warned (hends : t.planExpiresAt = some ends) (times : List Int) :
    ((j.warnings t times).length ≤ 1 ↔ (j.Due ends t →
        ((times.takeWhile (· < ends)).filter (j.inWindow ends)).length ≤ 1)) ∧
      ∀ (h : Handler) (id fresh : String) (created at' : Int) (sub : Subscription) (t' : Row σ),
        Change.applied h t (.event ⟨id, created, .subscription false sub⟩ at' fresh) = some t' →
        sub.live = true → j.Warns t' → ∀ (early : List Int) (now : Int),
          (∀ n ∈ early, n ≤ now ∧ j.inWindow (sub.expires at') n = false) →
          j.inWindow (sub.expires at') now = true → j.warnings t' (early ++ [now]) = [now] := by
  constructor
  · by_cases hdue : j.Due ends t
    · rw [LapseJob.warnings_of_due hends hdue]
      exact ⟨fun h _ => h, fun h => h hdue⟩
    · rw [LapseJob.warnings_of_not_due hends hdue]
      exact iff_of_true (Nat.zero_le 1) fun h => absurd h hdue
  · intro h id fresh created at' sub t' hrenewed hlive hwarns early now hearly hnow
    obtain ⟨hexpires, hspent⟩ := renewed_spec hlive hrenewed
    have hbefore : now < sub.expires at' := by
      simp only [LapseJob.inWindow, Bool.and_eq_true, decide_eq_true_eq] at hnow
      exact hnow.1
    have hall : ∀ n ∈ early, decide (n < sub.expires at') = true := fun n hn =>
      decide_eq_true (Int.lt_of_le_of_lt (hearly n hn).1 hbefore)
    rw [LapseJob.warnings_of_due hexpires ⟨hwarns, by simp [hspent]⟩,
      takeWhile_append_of_pos hall, takeWhile_cons_of_pos (by simpa using hbefore), filter_append,
      filter_eq_nil_iff.2 fun n hn => by simp [(hearly n hn).2], filter_cons_of_pos hnow]
    rfl

/-- A job that warns in the last thousand seconds of a plan. -/
def reminder : LapseJob := ⟨true, 1000, fun _ _ => "owner", id⟩

/-- A pass in the window warns; the plan is renewed, and a pass in the new window warns again. -/
theorem lapse_warned_once :
    (reminder.warnings { paid with planExpiresAt := some 5000 } [1000, 4500]).length ≤ 1 ∧
    ∃ t', Change.applied shop.handler { paid with planExpiresAt := some 5000 } renewal = some t' ∧
      reminder.warnings t' ([600] ++ [grace + 500]) = [grace + 500] := by
  have hwarned := @lapse_warned _ reminder { paid with planExpiresAt := some 5000 } 5000 rfl
    [1000, 4500]
  refine ⟨hwarned.1.2 fun _ => by decide, _, rfl, ?_⟩
  exact hwarned.2 shop.handler "e" "" 0 100 ⟨"sub", "", "active", 0, [], [⟨"p", 1000⟩]⟩ _ rfl
    (by decide) ⟨rfl, by decide, by decide, rfl, by decide, by decide⟩ _ _ (by decide) (by decide)

/-- Two passes in the window mail two warnings. -/
theorem lapse_warned_twice :
    reminder.warnings { paid with planExpiresAt := some 5000 } [4500, 4600] = [4500, 4600] := by
  decide

end Warnings

end MeshsatHub.Billing.Plans
