import MeshsatHub.Escalation.Answers
import MeshsatHub.Sos.Runs

/-!
# A cancel is terminal

The row's revision counts the events, so that what a call has read of the run is outdated or is the
state stored; the note of the owed work is cleared only for the revision it was done for. Hence a
cancelled run that owes nothing has a closed alert, and an active one has an alert.
-/

namespace MeshsatHub.Sos
open Escalation (Evolves ClosedAt Owned Raising Closing getAlert)
open Interleaving Runs Tables List Option

section Rows
variable {v : Service} {k : RunKey} {row run r : SOSRun} {row : Option SOSRun} {f : SOSRun → SOSRun}

structure SOSRun.Of (k : RunKey) (run : SOSRun) : Prop where
  tenant : run.tenantID = k.tenantID
  origin : run.origin = k.origin
  sosID : run.sosID = k.sosID

structure Snapshot (k : RunKey) (row : Option SOSRun) (run : SOSRun) : Prop where
  of : run.Of k
  outdated : ∃ r, row = some r ∧ run.rev ≤ r.rev ∧ (run.rev = r.rev → run.state = r.state) ∧
    (run.state = .cancelled → r.state = .cancelled)

theorem alertID_ne_empty (k : RunKey) : k.alertID v ≠ "" := by
  intro h
  have hlist := congrArg String.toList h
  simp [RunKey.alertID, Sos.alertID] at hlist

theorem alertFor_id (h : run.Of k) : (alertFor v run).id = k.alertID v := by
  rw [alertFor, RunKey.alertID, h.tenant, h.origin, h.sosID]

theorem snapshot_self (h : run.Of k) : Snapshot k (some run) run :=
  ⟨h, run, rfl, le_refl _, fun _ => rfl, id⟩

theorem applySOSEvent_spec (r : SOSRun) (ev : SOSRunEvent) : (applySOSEvent r ev).rev = r.rev + 1 ∧
      ((applySOSEvent r ev).tenantID = r.tenantID ∧ (applySOSEvent r ev).origin = r.origin ∧
        (applySOSEvent r ev).sosID = r.sosID) ∧
      (r.state = .cancelled → (applySOSEvent r ev).state = .cancelled) ∧
      ((applySOSEvent r ev).alertPending = false →
        r.alertPending = false ∧ (applySOSEvent r ev).state = r.state) := by
  unfold applySOSEvent
  cases ev.kind with
  | start =>
    dsimp only
    split <;> exact ⟨rfl, ⟨rfl, rfl, rfl⟩, id, fun h => ⟨h, rfl⟩⟩
  | cancel =>
    cases hstate : r.state with
    | active =>
      refine ⟨rfl, ⟨rfl, rfl, rfl⟩, fun _ => rfl, fun h => ?_⟩
      cases h
    | cancelled => exact ⟨rfl, ⟨rfl, rfl, rfl⟩, fun _ => rfl, fun h => ⟨h, rfl⟩⟩

theorem clearSOSRunAlertPending_spec (r : SOSRun) (rev : Nat) :
    ((clearSOSRunAlertPending r rev).tenantID = r.tenantID ∧
        (clearSOSRunAlertPending r rev).origin = r.origin ∧
        (clearSOSRunAlertPending r rev).sosID = r.sosID) ∧
      ((clearSOSRunAlertPending r rev).rev = r.rev ∧
        (clearSOSRunAlertPending r rev).state = r.state) ∧
      ((clearSOSRunAlertPending r rev).alertPending = false →
        r.alertPending = false ∨ r.rev = rev) := by
  unfold clearSOSRunAlertPending
  split
  case isTrue hrev => exact ⟨⟨rfl, rfl, rfl⟩, ⟨rfl, rfl⟩, fun _ => .inr hrev⟩
  case isFalse => exact ⟨⟨rfl, rfl, rfl⟩, ⟨rfl, rfl⟩, .inl⟩

/-- The row is there, its revision does not go back, and a cancelled run stays so. -/
def Advances (row row' : Option SOSRun) : Prop :=
  ∀ r, row = some r → ∃ r', row' = some r' ∧ r.rev ≤ r'.rev ∧
    (r.rev = r'.rev → r.state = r'.state) ∧
    (r.state = .cancelled → r'.state = .cancelled)

theorem Advances.refl (row : Option SOSRun) : Advances row row :=
  fun r hr => ⟨r, hr, le_refl _, fun _ => rfl, id⟩

theorem Advances.trans {first second third : Option SOSRun} (h : Advances first second)
    (h' : Advances second third) : Advances first third := by
  intro r hr
  obtain ⟨r', hr', hle, hsame, hcancelled⟩ := h r hr
  obtain ⟨r'', hr'', hle', hsame', hcancelled'⟩ := h' r' hr'
  refine ⟨r'', hr'', hle.trans hle', ?_, fun hc => hcancelled' (hcancelled hc)⟩
  intro heq
  exact (hsame (by omega)).trans (hsame' (by omega))

theorem advances_map
    (hf : ∀ r, (f r).rev = r.rev ∧ (f r).state = r.state) : Advances row (row.map f) := by
  rintro r rfl
  obtain ⟨hrev, hstate⟩ := hf r
  exact ⟨f r, rfl, hrev.ge, fun _ => hstate.symm, fun h => hstate.trans h⟩

theorem advances_apply (row : Option SOSRun) (ev : SOSRunEvent) :
    Advances row (some (applySOSRunEvent row ev)) := by
  rintro r rfl
  obtain ⟨hrev, -, hcancelled, -⟩ := applySOSEvent_spec r ev
  refine ⟨_, rfl, ?_, ?_, hcancelled⟩
  · rw [applySOSRunEvent, hrev]
    exact Nat.le_succ _
  · intro heq
    rw [applySOSRunEvent, hrev] at heq
    omega

theorem Snapshot.advances {row' : Option SOSRun} (h : Snapshot k row run)
    (hrow : Advances row row') : Snapshot k row' run := by
  obtain ⟨hof, r, rfl, hle, hsame, hcancelled⟩ := h
  obtain ⟨r', rfl, hle', hsame', hcancelled'⟩ := hrow r rfl
  refine ⟨hof, r', rfl, hle.trans hle', fun heq => ?_, fun h => hcancelled' (hcancelled h)⟩
  have hrev : run.rev = r.rev := by omega
  exact (hsame hrev).trans (hsame' (by omega))

end Rows

section Invariant
variable (v : Service) (k : RunKey)

def Stored (t : Escalation.Alerts) : Prop := ∃ a, t.at (k.alertID v) = some a

structure StoreInv (g : Store) : Prop where
  of : ∀ r, g.run = some r → r.Of k
  cancelled : ∀ r, g.run = some r → r.state = .cancelled → r.alertPending = false →
    ClosedAt g.engine.alerts (k.alertID v)
  active : ∀ r, g.run = some r → r.state = .active → r.alertPending = false →
    Stored v k g.engine.alerts
  alerts : ∀ x a, g.engine.alerts.at x = some a → x = k.alertID v ∧ a.tenantID = k.tenantID

/-- What a call relies on, where it stands. -/
def Call.Inv (g : Store) : Call → Prop
  | .applying ev _ => ev.tenantID = k.tenantID ∧ ev.sosID = k.sosID
  | .engine (.raising run) c =>
    (Snapshot k g.run run ∧ run.state = .active) ∧ Raising k.tenantID (k.alertID v) c
  | .engine (.closing run) c =>
    Snapshot k g.run run ∧ Closing g.engine.alerts k.tenantID (k.alertID v) c
  | .engine .other c => Raising k.tenantID (k.alertID v) c ∨ c.silent = true
  | .recording run | .rereading run =>
    (Snapshot k g.run run ∧ run.state = .active) ∧ Stored v k g.engine.alerts
  | .clearing run =>
    Snapshot k g.run run ∧ Stored v k g.engine.alerts ∧
      (run.state = .cancelled → ClosedAt g.engine.alerts (k.alertID v))
  | _ => True

abbrev RunInv (s : System Store Call) : Prop :=
  Interleaving.Inv (StoreInv v k) (fun g c => c.Inv v k g) (fun _ _ => True) s

end Invariant

section Operations
variable {v : Service} {k : RunKey} {s : System Store Call} {g g' : Store} {c c' : Call} {i : Nat}
  {run : SOSRun}
variable {t : Escalation.Alerts} {op : Escalation.Op} {d d' : Escalation.Call}
  {e : Escalation.Store} {ev : Incoming}

theorem Stored.evolves {t' : Escalation.Alerts} (h : Stored v k t) (hevolves : Evolves t t') :
    Stored v k t' := by
  obtain ⟨a, hat⟩ := h
  obtain ⟨a', hat', -⟩ := hevolves _ a hat
  exact ⟨a', hat'⟩

theorem stored_of_closedAt (h : ClosedAt t (k.alertID v)) : Stored v k t := by
  obtain ⟨a, hat, -⟩ := h
  exact ⟨a, hat⟩

theorem StoreInv.owned (h : StoreInv v k g) :
    Owned g.engine.alerts k.tenantID (k.alertID v) := fun a hat => (h.alerts _ a hat).2

theorem Call.Inv.mono (h : c.Inv v k g) (hrow : Advances g.run g'.run)
    (hevolves : Evolves g.engine.alerts g'.engine.alerts) : c.Inv v k g' := by
  cases c with
  | engine purpose c =>
    cases purpose with
    | raising run => exact ⟨⟨h.1.1.advances hrow, h.1.2⟩, h.2⟩
    | closing run => exact ⟨h.1.advances hrow, h.2.evolves hevolves⟩
    | other => exact h
  | recording run | rereading run => exact ⟨⟨h.1.1.advances hrow, h.1.2⟩, h.2.evolves hevolves⟩
  | clearing run =>
    exact ⟨h.1.advances hrow, h.2.1.evolves hevolves, fun hc => (h.2.2 hc).evolves hevolves⟩
  | _ => exact h

theorem perform_advances (hperform : perform v k g c op = some (g', c')) :
    Advances g.run g'.run ∧ Evolves g.engine.alerts g'.engine.alerts := by
  have hwrites {row : Option SOSRun} (hrow : Advances g.run row) :
      Advances g.run (op.writes g.run row) := by
    obtain hkept | hwritten := op.writes_eq g.run row
    · rw [hkept]
      exact Advances.refl _
    · rwa [hwritten]
  cases c with
  | applying ev attempts =>
    simp only [perform] at hperform
    split at hperform <;>
      (cases hperform; exact ⟨hwrites (advances_apply _ _), Evolves.refl _⟩)
  | finding user | listing | rereading run =>
    simp only [perform] at hperform
    split at hperform <;> (cases hperform; exact ⟨Advances.refl _, Evolves.refl _⟩)
  | engine purpose d =>
    obtain ⟨⟨e, d'⟩, hengine, heq⟩ := map_eq_some_iff.1 hperform
    cases heq
    exact ⟨Advances.refl _, Escalation.perform_evolves hengine⟩
  | recording run =>
    cases hperform
    exact ⟨hwrites (advances_map fun _ => ⟨rfl, rfl⟩), Evolves.refl _⟩
  | clearing run =>
    cases hperform
    exact ⟨hwrites (advances_map fun r => (clearSOSRunAlertPending_spec r run.rev).2.1),
      Evolves.refl _⟩
  | returned => cases hperform

theorem closeAlert_inv {settled : SOSRun} (hsettled : Snapshot k g.run settled) (hrun : run.Of k) :
    (closeAlert v settled run).Inv v k g := by
  have hid : (alertFor v run).id ≠ "" := alertFor_id hrun ▸ alertID_ne_empty k
  simp only [closeAlert, Escalation.Request.begin, if_neg hid, Purpose.resume]
  refine ⟨hsettled, ?_⟩
  rw [hrun.tenant]
  exact .closing (alertFor_id hrun)

theorem settle_inv (h : Snapshot k g.run run) : (settle v run).Inv v k g := by
  unfold settle
  split
  · exact closeAlert_inv h h.of
  case h_2 hactive =>
    have hid : (alertFor v run).id ≠ "" := alertFor_id h.of ▸ alertID_ne_empty k
    simp only [raise, if_neg v.configured, Escalation.Request.begin, if_neg hid, Purpose.resume]
    refine ⟨⟨h, hactive⟩, ?_⟩
    rw [h.of.tenant]
    exact .checking (alertFor_id h.of)

theorem alerts_inv (h : StoreInv v k g)
    (hinserts : ∀ now owner a, d.inserts now = some (owner, a) → owner = k.tenantID ∧
      a.id = k.alertID v) (hperform : Escalation.perform v.engine g.engine d op = some (e, d')) :
    ∀ x a, e.alerts.at x = some a → x = k.alertID v ∧ a.tenantID = k.tenantID := by
  have hwritten (selects : Escalation.Alert → Bool) (b : Escalation.Alert)
      (heq : e.alerts = g.engine.alerts.write selects (b.written v.engine.driver)
        (b.written_id v.engine.driver)) (x : String) (a : Escalation.Alert)
      (hat : e.alerts.at x = some a) : x = k.alertID v ∧ a.tenantID = k.tenantID := by
    rw [heq, at_write] at hat
    obtain ⟨r, hr, rfl⟩ := map_eq_some_iff.1 hat
    obtain ⟨hx, htenant⟩ := h.alerts x r hr
    refine ⟨hx, ?_⟩
    split <;> exact htenant
  obtain heq | ⟨tenantID, b, hins, hcreate⟩ | ⟨tenantID, b, how, who, now, -, heq⟩ |
    ⟨tenantID, b, expected, -, heq⟩ := Escalation.perform_alerts hperform
  · rw [heq]
    exact h.alerts
  · intro x a hat
    obtain ⟨rfl, hid⟩ := hinserts op.now tenantID b hins
    rw [(at_insert hcreate).2] at hat
    split at hat
    case isTrue hx =>
      cases hat
      exact ⟨hx.trans hid, rfl⟩
    case isFalse => exact h.alerts x a hat
  · exact hwritten _ _ heq
  · exact hwritten _ _ heq

theorem engine_inv {purpose : Purpose} (h : StoreInv v k g)
    (hinv : (Call.engine purpose d).Inv v k g)
    (hperform : Escalation.perform v.engine g.engine d op = some (e, d')) :
    StoreInv v k { g with engine := e } ∧ (purpose.resume d').Inv v k { g with engine := e } := by
  have hevolves := Escalation.perform_evolves hperform
  have hid := alertID_ne_empty (v := v) k
  have hinserts : ∀ now owner a, d.inserts now = some (owner, a) →
      owner = k.tenantID ∧ a.id = k.alertID v := by
    intro now owner a hins
    cases purpose with
    | raising run => exact hinv.2.inserts hid hins
    | closing run => exact hinv.2.inserts hins
    | other =>
      obtain hraising | hsilent := hinv
      · exact hraising.inserts hid hins
      · rw [Escalation.inserts_of_silent hsilent] at hins
        cases hins
  refine ⟨⟨h.of, ?_, ?_, alerts_inv h hinserts hperform⟩, ?_⟩
  · exact fun r hr hstate hpending => (h.cancelled r hr hstate hpending).evolves hevolves
  · exact fun r hr hstate hpending => (h.active r hr hstate hpending).evolves hevolves
  · cases purpose with
    | raising run =>
      obtain hraising | rfl | ⟨b, rfl, hstored⟩ := hinv.2.perform hid hperform
      · cases hraising with
        | checking h => exact ⟨hinv.1, .checking h⟩
        | creating h => exact ⟨hinv.1, .creating h⟩
        | rechecking h => exact ⟨hinv.1, .rechecking h⟩
      · trivial
      · exact ⟨hinv.1, hstored⟩
    | closing run =>
      obtain hclosing | rfl | ⟨b, rfl, hclosed⟩ := hinv.2.perform h.owned hperform
      · cases hclosing with
        | closing h => exact ⟨hinv.1, .closing h⟩
        | burying h => exact ⟨hinv.1, .burying h⟩
        | updating h hat => exact ⟨hinv.1, .updating h hat⟩
      · trivial
      · exact ⟨hinv.1, stored_of_closedAt hclosed, fun _ => hclosed⟩
    | other =>
      have hnext : Raising k.tenantID (k.alertID v) d' ∨ d'.silent := by
        obtain hraising | hsilent := hinv
        · obtain hraising | rfl | ⟨b, rfl, -⟩ := hraising.perform hid hperform
          · exact .inl hraising
          · exact .inr rfl
          · exact .inr rfl
        · exact .inr (Escalation.silent_perform hsilent hperform)
      cases d' with
      | returned answer => trivial
      | _ => exact hnext

theorem apply_inv (now : Int) (h : StoreInv v k g)
    (hev : ev.tenantID = k.tenantID ∧ ev.sosID = k.sosID) :
    StoreInv v k { g with run := some (applySOSRunEvent g.run (ev.event k.origin now)) } := by
  set after := applySOSRunEvent g.run (ev.event k.origin now) with hafter
  -- The row after the event, against the one before it.
  have hspec : after.Of k ∧ (after.alertPending = false →
      ∃ r, g.run = some r ∧ r.alertPending = false ∧ after.state = r.state) := by
    rw [hafter]
    cases hrow : g.run with
    | none =>
      refine ⟨⟨hev.1, rfl, hev.2⟩, ?_⟩
      intro hpending
      cases hpending
    | some r =>
      obtain ⟨-, ⟨htenant, horigin, hsosID⟩, -, hpending⟩ :=
        applySOSEvent_spec r (ev.event k.origin now)
      have hr := h.of r hrow
      exact ⟨⟨htenant.trans hr.tenant, horigin.trans hr.origin, hsosID.trans hr.sosID⟩,
        fun hcleared => ⟨r, rfl, hpending hcleared⟩⟩
  obtain ⟨hof, hpending⟩ := hspec
  refine ⟨?_, ?_, ?_, h.alerts⟩
  · rintro r ⟨⟩
    exact hof
  · rintro r ⟨⟩ hstate hcleared
    obtain ⟨r, hr, hbefore, hsame⟩ := hpending hcleared
    exact h.cancelled r hr (hsame ▸ hstate) hbefore
  · rintro r ⟨⟩ hstate hcleared
    obtain ⟨r, hr, hbefore, hsame⟩ := hpending hcleared
    exact h.active r hr (hsame ▸ hstate) hbefore

section
variable (h : StoreInv v k g)
include h

theorem map_inv
    (hkey : ∀ r, (f r).tenantID = r.tenantID ∧ (f r).origin = r.origin ∧ (f r).sosID = r.sosID)
    (hstate : ∀ r, (f r).state = r.state)
    (hnote : ∀ r, g.run = some r → (f r).alertPending = false → r.alertPending = false ∨
      Stored v k g.engine.alerts ∧
        (r.state = .cancelled → ClosedAt g.engine.alerts (k.alertID v))) :
    StoreInv v k { g with run := g.run.map f } := by
  refine ⟨?_, ?_, ?_, h.alerts⟩
  · intro r hr
    obtain ⟨r, hrow, rfl⟩ := map_eq_some_iff.1 hr
    obtain ⟨htenant, horigin, hsosID⟩ := hkey r
    have hof := h.of r hrow
    exact ⟨htenant.trans hof.tenant, horigin.trans hof.origin, hsosID.trans hof.sosID⟩
  · intro r hr hcancelled hcleared
    obtain ⟨r, hrow, rfl⟩ := map_eq_some_iff.1 hr
    rw [hstate r] at hcancelled
    obtain hbefore | ⟨-, hclosed⟩ := hnote r hrow hcleared
    · exact h.cancelled r hrow hcancelled hbefore
    · exact hclosed hcancelled
  · intro r hr hactive hcleared
    obtain ⟨r, hrow, rfl⟩ := map_eq_some_iff.1 hr
    rw [hstate r] at hactive
    obtain hbefore | ⟨hstored, -⟩ := hnote r hrow hcleared
    · exact h.active r hrow hactive hbefore
    · exact hstored

theorem StoreInv.writes (op : Escalation.Op) (hrow : StoreInv v k { g with run := row }) :
    StoreInv v k { g with run := op.writes g.run row } := by
  obtain hkept | hwritten := op.writes_eq g.run row
  · rwa [hkept]
  · rwa [hwritten]

theorem applying_inv {attempts : Nat} (hev : (Call.applying ev attempts).Inv v k g)
    (hperform : perform v k g (.applying ev attempts) op = some (g', c')) :
    StoreInv v k g' ∧ c'.Inv v k g' := by
  have happlied := apply_inv op.now h hev
  simp only [perform] at hperform
  split at hperform
  case isTrue hok =>
    cases hperform
    refine ⟨h.writes op happlied, ?_⟩
    split
    · apply settle_inv
      rw [Escalation.Op.writes_of_ok hok]
      exact snapshot_self (happlied.of _ rfl)
    · trivial
  case isFalse =>
    cases hperform
    refine ⟨h.writes op happlied, ?_⟩
    cases attempts with
    | zero => trivial
    | succ n => exact hev

theorem clearing_inv (hinv : (Call.clearing run).Inv v k g) :
    StoreInv v k { g with run := g.run.map fun r => clearSOSRunAlertPending r run.rev } := by
  obtain ⟨⟨-, r, hrow, -, hsame, -⟩, hstored, hclosed⟩ := hinv
  refine map_inv h (fun r => (clearSOSRunAlertPending_spec r run.rev).1)
    (fun r => (clearSOSRunAlertPending_spec r run.rev).2.1.2) ?_
  intro r' hr' hcleared
  cases hrow.symm.trans hr'
  obtain hbefore | hrev := (clearSOSRunAlertPending_spec r run.rev).2.2 hcleared
  · exact .inl hbefore
  · exact .inr ⟨hstored, fun hcancelled => hclosed ((hsame hrev.symm).trans hcancelled)⟩

theorem rereading_inv {now : SOSRun} (hinv : (Call.rereading run).Inv v k g)
    (hrow : g.run = some now) :
    (match now.state with
      | .cancelled => closeAlert v run now
      | .active => Call.clearing run).Inv v k g := by
  obtain ⟨⟨hsnapshot, hactive⟩, hstored⟩ := hinv
  split
  · exact closeAlert_inv hsnapshot (h.of now hrow)
  · refine ⟨hsnapshot, hstored, fun hcancelled => ?_⟩
    rw [hactive] at hcancelled
    cases hcancelled

theorem perform_inv (hinv : c.Inv v k g) (hperform : perform v k g c op = some (g', c')) :
    StoreInv v k g' ∧ c'.Inv v k g' := by
  have hadvances := perform_advances hperform
  cases c with
  | applying ev attempts => exact applying_inv h hinv hperform
  | finding user =>
    simp only [perform] at hperform
    split at hperform
    case h_1 found hread =>
      cases hperform
      have hof := h.of found (Escalation.Op.reads_eq_some hread)
      exact ⟨h, hof.tenant, hof.sosID⟩
    case h_2 =>
      cases hperform
      exact ⟨h, trivial⟩
  | listing =>
    simp only [perform] at hperform
    split at hperform
    case h_1 found hread =>
      cases hperform
      obtain ⟨hrow, -⟩ := filter_eq_some_iff.1 (Escalation.Op.reads_eq_some hread)
      refine ⟨h, settle_inv ?_⟩
      rw [hrow]
      exact snapshot_self (h.of found hrow)
    case h_2 =>
      cases hperform
      exact ⟨h, trivial⟩
  | engine purpose d =>
    obtain ⟨⟨e, d'⟩, hengine, heq⟩ := map_eq_some_iff.1 hperform
    cases heq
    exact engine_inv h hinv hengine
  | recording run =>
    cases hperform
    refine ⟨h.writes op (map_inv h (fun _ => ⟨rfl, rfl, rfl⟩) (fun _ => rfl) fun _ _ => .inl), ?_⟩
    split
    · exact ⟨⟨hinv.1.1.advances hadvances.1, hinv.1.2⟩, hinv.2⟩
    · trivial
  | rereading run =>
    simp only [perform] at hperform
    split at hperform
    case h_1 now hread =>
      cases hperform
      exact ⟨h, rereading_inv h hinv (Escalation.Op.reads_eq_some hread)⟩
    case h_2 =>
      cases hperform
      exact ⟨h, trivial⟩
  | clearing run =>
    cases hperform
    exact ⟨h.writes op (clearing_inv h hinv), trivial⟩
  | returned => cases hperform

end

end Operations

section Runs
variable {v : Service} {k : RunKey} {s s' t : System Store Call} {c : Call}
variable {g : Store}

theorem begin_inv {request : Request} (h : request.begin v k = some c) : c.Inv v k g := by
  revert h
  fun_cases Request.begin v k request with
  | case1 ev hnames =>
    rintro ⟨⟩
    simp only [RunKey.names, Bool.and_eq_true, beq_iff_eq] at hnames
    exact ⟨hnames.1.1.1, hnames.1.2⟩
  | case3 | case4 =>
    rintro ⟨⟩
    trivial
  | case5 _ _ _ hchain => exact absurd hchain v.configured
  | case6 ev now hnames =>
    rintro ⟨⟩
    simp only [RunKey.names, Bool.and_eq_true, beq_iff_eq] at hnames
    obtain ⟨⟨htenant, horigin⟩, hsosID⟩ := hnames
    rw [htenant]
    exact .inl (Escalation.raising_begin (alertFor_id ⟨htenant, horigin, hsosID⟩)
      (alertID_ne_empty k))
  | case8 | case9 =>
    rintro ⟨⟩
    exact .inr rfl
  | _ => rintro ⟨⟩

theorem step_inv (h : RunInv v k s) {e : Event Request Escalation.Op}
    (hstep : step (program v k) s e = some s') :
    RunInv v k s' ∧ Advances s.shared.run s'.shared.run ∧
      Evolves s.shared.engine.alerts s'.shared.engine.alerts := by
  obtain ⟨request, g, c, hstart⟩ | ⟨i, op, c, g, c', hi, hact⟩ := step_cases hstep
  · obtain ⟨c, hbegin, heq⟩ := map_eq_some_iff.1 hstart
    cases heq
    refine ⟨?_, Advances.refl _, Evolves.refl _⟩
    exact h.begun h.shared (begin_inv hbegin) fun m _ hm => ⟨hm, trivial⟩
  · obtain ⟨hrow, hevolves⟩ := perform_advances hact
    obtain ⟨hshared, hlocal⟩ := perform_inv h.shared (h.call hi) hact
    refine ⟨?_, hrow, hevolves⟩
    exact h.acted hi hshared hlocal fun m _ hm _ => ⟨hm.mono hrow hevolves, trivial⟩

theorem initial_inv : RunInv v k initial := by
  refine Inv.nil ⟨?_, ?_, ?_, ?_⟩
  · rintro r ⟨⟩
  · rintro r ⟨⟩
  · rintro r ⟨⟩
  · intro x a hat
    cases hat

theorem reaches_inv (h : RunInv v k s)
    (hreach : Reaches (step (program v k)) (fun _ _ => True) s t) :
    RunInv v k t ∧ Advances s.shared.run t.shared.run ∧
      Evolves s.shared.engine.alerts t.shared.engine.alerts := by
  induction hreach with
  | refl => exact ⟨h, Advances.refl _, Evolves.refl _⟩
  | tail _ _ _ hstep ih =>
    obtain ⟨hinv, hrow, hevolves⟩ := ih
    obtain ⟨hinv', hrow', hevolves'⟩ := step_inv hinv hstep
    exact ⟨hinv', hrow.trans hrow', hevolves.trans hevolves'⟩

theorem StoreInv.getAlert_eq (h : StoreInv v k g) {a : Escalation.Alert}
    (hat : g.engine.alerts.at (k.alertID v) = some a) :
    getAlert g.engine.alerts k.tenantID (k.alertID v) = some a := by
  have hnamed : a.named k.tenantID (k.alertID v) :=
    Escalation.named_iff.2 ⟨key_of_at hat, .inr (h.owned a hat)⟩
  cases hget : getAlert g.engine.alerts k.tenantID (k.alertID v) with
  | none =>
    rw [Escalation.not_named_of_getAlert hget hat] at hnamed
    cases hnamed
  | some b => rw [← (Escalation.at_of_getAlert hget).1, hat]

theorem StoreInv.single (h : StoreInv v k g) : g.engine.alerts.rows.length ≤ 1 := by
  have hids : ∀ x ∈ g.engine.alerts.rows.map Escalation.Alert.id, x = k.alertID v := by
    intro x hx
    obtain ⟨a, ha, rfl⟩ := mem_map.1 hx
    exact (h.alerts _ a (at_of_mem ha)).1
  have hkeyed := g.engine.alerts.keyed
  rw [eq_replicate_of_mem hids, nodup_replicate, length_map] at hkeyed
  exact hkeyed

variable (v k) in
structure Terminal (s : System Store Call) : Prop where
  cancelled : ∀ t, Reaches (step (program v k)) (fun _ _ => True) s t →
    ∀ r, s.shared.run = some r → r.state = .cancelled →
      ∃ r', t.shared.run = some r' ∧ r'.state = .cancelled
  closed : ∀ r, s.shared.run = some r → r.state = .cancelled → r.alertPending = false →
    ∀ t, Reaches (step (program v k)) (fun _ _ => True) s t →
      ∃ a, getAlert t.shared.engine.alerts k.tenantID (k.alertID v) = some a ∧
        a.state.isOpen = false
  raised : ∀ r, s.shared.run = some r → r.state = .active → r.alertPending = false →
    ∃ a, getAlert s.shared.engine.alerts k.tenantID (k.alertID v) = some a
  single : s.shared.engine.alerts.rows.length ≤ 1

theorem cancel_terminal (v : Service) (k : RunKey)
    (hs : Reaches (step (program v k)) (fun _ _ => True) initial s) : Terminal v k s := by
  obtain ⟨hinv, -, -⟩ := reaches_inv (initial_inv (v := v) (k := k)) hs
  refine ⟨?_, ?_, ?_, hinv.shared.single⟩
  · intro t ht r hr hcancelled
    obtain ⟨-, hrow, -⟩ := reaches_inv hinv ht
    obtain ⟨r', hr', -, -, hstays⟩ := hrow r hr
    exact ⟨r', hr', hstays hcancelled⟩
  · intro r hr hcancelled hcleared t ht
    obtain ⟨hinv', -, hevolves⟩ := reaches_inv hinv ht
    obtain ⟨a, hat, hclosed⟩ := (hinv.shared.cancelled r hr hcancelled hcleared).evolves hevolves
    exact ⟨a, hinv'.shared.getAlert_eq hat, hclosed⟩
  · intro r hr hactive hcleared
    obtain ⟨a, hat⟩ := hinv.shared.active r hr hactive hcleared
    exact ⟨a, hinv.shared.getAlert_eq hat⟩

def sampleKey : RunKey := ⟨"acme", "bridge:br-1", "018f0000-0000-7000-8000-000000000001"⟩

def sampleService : Service where
  engine := ⟨.postgres, fun tenantID chainID =>
    if tenantID = "acme" ∧ chainID = "on-call" then some [⟨60, 1⟩] else none⟩
  chain := "on-call"
  configured := by decide
  sha256 := fun _ => [222, 75, 201, 136, 50, 96, 94, 207, 140, 203, 225, 126, 70, 205, 138, 41, 45,
    43, 245, 253, 235, 245, 35, 65, 55, 196, 240, 55, 169, 197, 170, 73]
  sosIDValid := fun sosID _ runStartMs => sosID == sampleKey.sosID && runStartMs == 1713691951104

def sampleEvent (kind : EventKind) (bearer : Bearer) : Incoming :=
  ⟨"acme", "br-1", bearer, kind, sampleKey.sosID, 1713691951104,
    ⟨"300234010753370", "man overboard", 0, 0, false⟩, 0, ""⟩

/-- A cancel overtakes the raising of the alert: the alert is created between the look
for it and its tombstone. A replica that could not store the start pages for it, and
the first call, which comes back to the run, finds it cancelled. -/
def overtaken : List (Event Request Escalation.Op) :=
  [.start (.apply (sampleEvent .start .sbd)), .act 0 ⟨1000, .done⟩,
    .start (.apply (sampleEvent .cancel .mqtt)), .act 1 ⟨2000, .lost⟩, .act 1 ⟨3000, .done⟩,
    .act 1 ⟨4000, .done⟩, .act 0 ⟨4000, .done⟩, .act 0 ⟨5000, .done⟩,
    .act 1 ⟨6000, .done⟩, .act 1 ⟨6000, .done⟩,
    .start (.pageUnstored (sampleEvent .start .sms) 6000), .act 2 ⟨6000, .done⟩,
    .act 1 ⟨7000, .done⟩, .act 0 ⟨8000, .done⟩, .act 1 ⟨9000, .done⟩, .act 0 ⟨10000, .done⟩,
    .act 0 ⟨11000, .done⟩, .act 0 ⟨12000, .done⟩,
    .start (.acknowledge "ops"), .act 3 ⟨13000, .done⟩, .start .processAlerts,
    .act 4 ⟨13000, .done⟩]

theorem cancel_terminal_overtaken :
    ∃ s, Reaches (step (program sampleService sampleKey)) (fun _ _ => True) initial s ∧
      s.shared.run.map (fun r => (r.state, r.rev, r.alertPending)) = some (.cancelled, 2, false) ∧
      s.shared.engine.alerts.rows.map (·.state) = [.cancelled] ∧
      Terminal sampleService sampleKey s := by
  simpa only [and_assoc] using exists_reaches_and_of_replay
    (P := fun s => s.shared.run.map (fun r => (r.state, r.rev, r.alertPending)) =
        some (.cancelled, 2, false) ∧ s.shared.engine.alerts.rows.map (·.state) = [.cancelled])
    overtaken (by decide +kernel) fun _ hs => cancel_terminal sampleService sampleKey hs

end Runs

end MeshsatHub.Sos
