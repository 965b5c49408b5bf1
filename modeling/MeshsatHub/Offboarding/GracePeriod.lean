import MeshsatHub.Offboarding.Accounts

/-!
# The grace period

A pass decides by the rows it has listed and `PurgeTenant` checks nothing again, so an account that
is recovered after the listing is destroyed all the same.
-/

namespace MeshsatHub.Offboarding
open Histories Interleaving Runs List
variable {a : Accounts} {id x : String} {status : Status} {stamp : Option Int} {t : Tenant}
  {cutoff : Int}

theorem id_of_getTenant (h : getTenant a id = some t) : t.id = id := by
  simpa using find?_some h

theorem getTenant_of_mem (h : t ∈ a.rows) : getTenant a t.id = some t := by
  have hsome : (getTenant a t.id).isSome := by
    rw [getTenant, find?_isSome]
    exact ⟨t, h, by simp⟩
  obtain ⟨u, hu⟩ := Option.isSome_iff_exists.1 hsome
  have hmem : u ∈ a.rows := mem_of_find?_eq_some hu
  rw [hu, inj_on_of_nodup_map a.keyed hmem h (id_of_getTenant hu)]

theorem getTenant_updateTenant (a : Accounts) (id x : String) (status : Status)
    (stamp : Option Int) :
    getTenant (updateTenant a id status stamp) x =
      (getTenant a x).map fun t => t.rewrite id status stamp := by
  have hcomp : ((fun t : Tenant => t.id == x) ∘ fun t : Tenant => t.rewrite id status stamp) =
      fun t : Tenant => t.id == x := by
    funext t
    simp
  rw [getTenant, updateTenant, find?_map, hcomp, getTenant]

theorem getTenant_updateTenant_ne (h : x ≠ id) :
    getTenant (updateTenant a id status stamp) x = getTenant a x := by
  rw [getTenant_updateTenant]
  cases hx : getTenant a x with
  | none => rfl
  | some t =>
    have hne : ¬t.id = id := fun hid => h (id_of_getTenant hx ▸ hid)
    rw [Option.map_some, Tenant.rewrite, if_neg hne]

theorem getTenant_updateTenant_same (h : getTenant a id = some t) :
    getTenant (updateTenant a id t.status t.deletedAt) x = getTenant a x := by
  by_cases hx : x = id
  · subst hx
    rw [getTenant_updateTenant, h, Option.map_some, Tenant.rewrite, if_pos (id_of_getTenant h)]
  · exact getTenant_updateTenant_ne hx

theorem getTenant_purgeTenant_ne (h : x ≠ id) : getTenant (purgeTenant a id) x = getTenant a x := by
  unfold purgeTenant
  split
  · rfl
  · rw [getTenant, getTenant, find?_filter]
    congr 1
    funext t
    by_cases ht : t.id = x <;> simp [ht, h]

theorem stored_of_listed (h : t ∈ listTenantsDeletedBefore a cutoff) :
    getTenant a t.id = some t ∧ t.status = .deleted ∧ ∃ d, t.deletedAt = some d ∧ d < cutoff := by
  rw [listTenantsDeletedBefore, mem_insertionSort, mem_filter, Bool.and_eq_true,
    Option.any_eq_true] at h
  obtain ⟨hmem, hstatus, d, hd, hlt⟩ := h
  exact ⟨getTenant_of_mem hmem, by simpa using hstatus, d, hd, by simpa using hlt⟩

theorem nodup_listed (a : Accounts) (cutoff : Int) :
    ((listTenantsDeletedBefore a cutoff).map (·.id)).Nodup := by
  have hperm := perm_insertionSort (fun t u : Tenant => t.deletedAt.getD 0 ≤ u.deletedAt.getD 0)
    (a.rows.filter fun t => t.status == .deleted && t.deletedAt.any (· < cutoff))
  exact (hperm.map _).nodup_iff.2 (a.keyed.sublist (filter_sublist.map _))

def Accounts.Closed (a : Accounts) (cutoff : Int) (id : String) : Prop :=
  ∃ t, getTenant a id = some t ∧ t.status = .deleted ∧ ∃ d, t.deletedAt = some d ∧ d < cutoff

structure StoreInv (job : PurgeJob) (g : Store) : Prop where
  due : DestroyedDue job.grace g.log
  kept : RecoveredKept g.log
  reopened : ∀ id t, Recovered id g.log → getTenant g.accounts id = some t → t.status ≠ .deleted

def Call.Inv (job : PurgeJob) (g : Store) : Call → Prop
  | .list cutoff => cutoff + job.grace ≤ g.clock
  | .sweep cutoff due _ => cutoff + job.grace ≤ g.clock ∧ (due.map (·.id)).Nodup ∧
      ∀ t ∈ due, g.accounts.Closed cutoff t.id
  | .update _ status => status ≠ some .deleted
  | _ => True

abbrev HubInv (job : PurgeJob) : Hub → Prop :=
  Interleaving.Inv (StoreInv job) (Call.Inv job) fun _ _ => True

variable {job : PurgeJob} {g g' : Store} {l : Call}

theorem Accounts.Closed.congr {b : Accounts} (h : a.Closed cutoff id)
    (hget : getTenant b id = getTenant a id) : b.Closed cutoff id := by
  obtain ⟨t, ht, hrest⟩ := h
  exact ⟨t, hget.trans ht, hrest⟩

theorem Call.Inv.mono (h : l.Inv job g) (hclock : g.clock ≤ g'.clock)
    (hrows : ∀ id, l.listed id → getTenant g'.accounts id = getTenant g.accounts id) :
    l.Inv job g' := by
  cases l with
  | list cutoff => exact le_trans h hclock
  | sweep cutoff due stage =>
    refine ⟨le_trans h.1 hclock, h.2.1, fun t ht => (h.2.2 t ht).congr (hrows t.id ?_)⟩
    simpa [Call.listed] using ⟨t, ht, rfl⟩
  | update row status => exact h
  | close id stamp | done => trivial

theorem Call.Inv.rest {rest : List Tenant} {stage : Stage}
    (h : Call.Inv job g (.sweep cutoff (t :: rest) stage)) (next : Stage) :
    Call.Inv job g (.sweep cutoff rest next) :=
  ⟨h.1, (nodup_cons.1 h.2.1).2, fun u hu => h.2.2 u (mem_cons_of_mem t hu)⟩

variable {e : Entry}

section
variable (h : StoreInv job g)
include h

theorem StoreInv.not_recovered (hclosed : g.accounts.Closed cutoff id) : ¬Recovered id g.log := by
  obtain ⟨t, ht, hstatus, -⟩ := hclosed
  exact fun hrecovered => h.reopened id t hrecovered ht hstatus

theorem StoreInv.snoc (he : ∀ id now row, e.destroys = some (id, now, row) →
      (∃ t, row = some t ∧ t.id = id ∧ t.Due job.grace now) ∧ ¬Recovered id g.log) :
    DestroyedDue job.grace (g.log ++ [e]) ∧ RecoveredKept (g.log ++ [e]) := by
  exact ⟨all_mem_snoc h.due fun id now row hdestroys => (he id now row hdestroys).1,
    each_snoc.2 ⟨h.kept, fun id now row hdestroys => (he id now row hdestroys).2⟩⟩

theorem StoreInv.destroyed
    (hcutoff : cutoff + job.grace ≤ g.clock) (hclosed : g.accounts.Closed cutoff id)
    (he : e.destroys = some (id, g.clock, getTenant g.accounts id)) :
    DestroyedDue job.grace (g.log ++ [e]) ∧ RecoveredKept (g.log ++ [e]) := by
  have hkept := h.not_recovered hclosed
  obtain ⟨t, ht, hstatus, d, hd, hlt⟩ := hclosed
  refine h.snoc fun id' now row hdestroys => ?_
  rw [he] at hdestroys
  obtain ⟨rfl, rfl, rfl⟩ := Option.some.inj hdestroys
  exact ⟨⟨t, ht, id_of_getTenant ht, hstatus, d, hd, by omega⟩, hkept⟩

theorem StoreInv.noted (he : e.destroys = none) :
    DestroyedDue job.grace (g.log ++ [e]) ∧ RecoveredKept (g.log ++ [e]) := by
  refine h.snoc fun id' now row hdestroys => ?_
  rw [he] at hdestroys
  cases hdestroys

end

theorem recovered_of_snoc_destroys {d : String × Int × Option Tenant} (he : e.destroys = some d)
    (h : Recovered x (g.log ++ [e])) : Recovered x g.log := by
  obtain heq | ⟨-, hsince⟩ := since_snoc.1 h
  · rw [heq] at he
    cases he
  · exact hsince

variable {s : Hub} {l' : Call} {i : Nat}

theorem acted (h : HubInv job s) (hi : s.calls[i]? = some l) (hshared : StoreInv job g)
    (hlocal : l'.Inv job g) (hclock : g.clock = s.shared.clock)
    (hrows : ∀ m ∈ s.calls.eraseIdx i, ∀ id, m.listed id →
      getTenant g.accounts id = getTenant s.shared.accounts id) :
    HubInv job ⟨g, s.calls.set i l'⟩ := by
  apply h.acted_besides hi hshared hlocal
  intro m hm hinv _
  exact ⟨hinv.mono (le_of_eq hclock.symm) (hrows m hm), trivial⟩

theorem acted_aside (h : HubInv job s) (hi : s.calls[i]? = some l) (hlocal : l'.Inv job s.shared) :
    HubInv job ⟨s.shared, s.calls.set i l'⟩ :=
  acted h hi h.shared hlocal rfl fun _ _ _ _ => rfl

variable {cutoff : Int} {rest : List Tenant}

theorem ne_of_not_listed (hlisted : s.listed id = false) {m : Call} (hm : m ∈ s.calls)
    (hx : m.listed x) : x ≠ id := by
  rintro rfl
  have hany : s.listed x := any_eq_true.2 ⟨m, hm, hx⟩
  rw [hlisted] at hany
  cases hany

section
variable (h : HubInv job s) {row t : Tenant}
include h

theorem acted_list (hi : s.calls[i]? = some (.list cutoff)) :
    HubInv job ⟨s.shared, s.calls.set i (.sweep cutoff
      ((listTenantsDeletedBefore s.shared.accounts cutoff).filter fun t => t.id != defaultTenantID)
      .teardown)⟩ := by
  have hcutoff : cutoff + job.grace ≤ s.shared.clock := h.call hi
  refine acted_aside h hi ⟨hcutoff, ?_, ?_⟩
  · exact (nodup_listed s.shared.accounts cutoff).sublist (filter_sublist.map _)
  · intro t ht
    have hlisted := stored_of_listed (mem_filter.1 ht).1
    exact ⟨t, hlisted.1, hlisted.2⟩

theorem acted_teardown (hi : s.calls[i]? = some (.sweep cutoff (t :: rest) .teardown))
    (effective : Bool) (hlocal : l'.Inv job s.shared) :
    HubInv job ⟨s.shared.tearDown t.id effective, s.calls.set i l'⟩ := by
  have hinv : Call.Inv job s.shared (.sweep cutoff (t :: rest) .teardown) := h.call hi
  unfold Store.tearDown
  split
  · have hdestroyed := h.shared.destroyed hinv.1 (hinv.2.2 t (by simp))
      (e := .tornDown t.id s.shared.clock (getTenant s.shared.accounts t.id)) rfl
    refine acted h hi ⟨hdestroyed.1, hdestroyed.2, ?_⟩ (hlocal.mono le_rfl fun _ _ => rfl) rfl
      fun _ _ _ _ => rfl
    exact fun id u hrec => h.shared.reopened id u (recovered_of_snoc_destroys rfl hrec)
  · exact acted_aside h hi hlocal

theorem acted_purge (hi : s.calls[i]? = some (.sweep cutoff (t :: rest) .purge))
    (effective : Bool) (hok : s.listedBesides i t.id = false) :
    HubInv job ⟨s.shared.purge t.id effective, s.calls.set i (.sweep cutoff rest .teardown)⟩ := by
  have hinv : Call.Inv job s.shared (.sweep cutoff (t :: rest) .purge) := h.call hi
  unfold Store.purge
  split
  · have hdestroyed := h.shared.destroyed hinv.1 (hinv.2.2 t (by simp))
      (e := .purged t.id s.shared.clock (getTenant s.shared.accounts t.id)) rfl
    have hgone (id : String) (hid : id ≠ t.id) :
        getTenant (purgeTenant s.shared.accounts t.id) id = getTenant s.shared.accounts id :=
      getTenant_purgeTenant_ne hid
    refine acted h hi ⟨hdestroyed.1, hdestroyed.2, ?_⟩ ?_ rfl ?_
    · intro id u hrec hu
      have hbefore : Recovered id s.shared.log := recovered_of_snoc_destroys rfl hrec
      have hid : id ≠ t.id := by
        rintro rfl
        exact h.shared.not_recovered (hinv.2.2 t (by simp)) hbefore
      exact h.shared.reopened id u hbefore ((hgone id hid).symm.trans hu)
    · -- the list has each tenant once
      refine (hinv.rest .teardown).mono le_rfl fun id hid => hgone id ?_
      rintro rfl
      have hmem : t.id ∈ rest.map (·.id) := by simpa [Call.listed] using hid
      exact (nodup_cons.1 hinv.2.1).1 hmem
    · intro m hm id hid
      apply hgone id
      rintro rfl
      have hany : s.listedBesides i t.id := any_eq_true.2 ⟨m, hm, hid⟩
      rw [hok] at hany
      cases hany
  · exact acted_aside h hi (hinv.rest .teardown)

theorem acted_written (hi : s.calls[i]? = some l) {status : Status} {stamp : Option Int}
    (hstatus : status ≠ .deleted) (hok : s.listed id = false) {log : List Entry}
    (hlog : log = s.shared.log ∨ log = s.shared.log ++ [.recovered id]) :
    HubInv job ⟨{ s.shared with
      accounts := updateTenant s.shared.accounts id status stamp, log := log },
      s.calls.set i .done⟩ := by
  have hnoted : DestroyedDue job.grace log ∧ RecoveredKept log := by
    obtain rfl | rfl := hlog
    · exact ⟨h.shared.due, h.shared.kept⟩
    · exact h.shared.noted rfl
  have hbefore (x : String) (hx : x ≠ id) (hrec : Recovered x log) : Recovered x s.shared.log := by
    obtain rfl | rfl := hlog
    · exact hrec
    · obtain heq | ⟨-, hsince⟩ := since_snoc.1 hrec
      · exact absurd (Entry.recovered.inj heq).symm hx
      · exact hsince
  refine acted h hi ⟨hnoted.1, hnoted.2, ?_⟩ trivial rfl ?_
  · intro x t hrec ht
    by_cases hx : x = id
    · subst hx
      rw [getTenant_updateTenant] at ht
      obtain ⟨u, hu, rfl⟩ := Option.map_eq_some_iff.1 ht
      rw [Tenant.rewrite, if_pos (id_of_getTenant hu)]
      exact hstatus
    · rw [getTenant_updateTenant_ne hx] at ht
      exact h.shared.reopened x t (hbefore x hx hrec) ht
  · intro m hm x hx
    exact getTenant_updateTenant_ne (ne_of_not_listed hok (mem_of_mem_eraseIdx hm) hx)

theorem acted_restored (hi : s.calls[i]? = some l)
    (hrow : getTenant s.shared.accounts row.id = some row) :
    HubInv job ⟨{ s.shared with
      accounts := updateTenant s.shared.accounts row.id row.status row.deletedAt },
      s.calls.set i .done⟩ := by
  have hsame (x : String) : getTenant (updateTenant s.shared.accounts row.id row.status
      row.deletedAt) x = getTenant s.shared.accounts x := getTenant_updateTenant_same hrow
  refine acted h hi ⟨h.shared.due, h.shared.kept, ?_⟩ trivial rfl fun _ _ x _ => hsame x
  exact fun x t hrec ht => h.shared.reopened x t hrec ((hsame x).symm.trans ht)

theorem acted_update {status : Option Status} (hi : s.calls[i]? = some (.update row status))
    (effective : Bool) {op : Op} (hok : orderly s (.act i op)) :
    HubInv job ⟨s.shared.update row status effective, s.calls.set i .done⟩ := by
  have hinv : status ≠ some .deleted := h.call hi
  unfold Store.update
  split
  · rw [orderly, hi] at hok
    cases status with
    | none =>
      obtain hsame | hback := Bool.or_eq_true_iff.1 hok
      · exact acted_restored h hi (by simpa using hsame)
      · obtain ⟨hlisted, hstatus⟩ := Bool.and_eq_true_iff.1 hback
        exact acted_written h hi (by simpa using hstatus) (by simpa using hlisted) (.inl rfl)
    | some asked =>
      have hasked : asked ≠ .deleted := fun heq => hinv (congrArg some heq)
      apply acted_written h hi hasked (by simpa using hok)
      by_cases hactive : some asked = some Status.active
      · exact .inr (if_pos hactive)
      · exact .inl (if_neg hactive)
  · exact acted_aside h hi trivial

theorem acted_close {stamp : Int} (hi : s.calls[i]? = some (.close id stamp)) (effective : Bool)
    (hok : s.listed id = false) :
    HubInv job ⟨s.shared.close id stamp effective, s.calls.set i .done⟩ := by
  unfold Store.close
  split
  · have hrow (x : String) (hx : x ≠ id) :
        getTenant (softDeleteTenant s.shared.accounts id stamp) x =
          getTenant s.shared.accounts x := by
      unfold softDeleteTenant
      split
      · rfl
      · exact getTenant_updateTenant_ne hx
    have hnoted := h.shared.noted (e := .closed id) rfl
    refine acted h hi ⟨hnoted.1, hnoted.2, ?_⟩ trivial rfl ?_
    · intro x t hrec ht
      -- the account that is closed counts as recovered no longer
      obtain heq | ⟨hne, hbefore⟩ := since_snoc.1 hrec
      · cases heq
      · have hx : x ≠ id := by
          rintro rfl
          exact hne rfl
        exact h.shared.reopened x t hbefore ((hrow x hx).symm.trans ht)
    · exact fun m hm x hx => hrow x (ne_of_not_listed hok (mem_of_mem_eraseIdx hm) hx)
  · exact acted_aside h hi trivial

theorem operate_inv (hi : s.calls[i]? = some l) {op : Op} (hok : orderly s (.act i op))
    {outcome : Outcome} (hop : operate job s.shared outcome l = some (g, l')) :
    HubInv job ⟨g, s.calls.set i l'⟩ := by
  have hinv : l.Inv job s.shared := h.call hi
  revert hop
  fun_cases operate job s.shared outcome l with rintro ⟨⟩
  | case1 => exact acted_list h hi
  | case2 | case3 => exact acted_aside h hi trivial
  | case4 =>
    apply acted_teardown h hi _
    split
    · exact hinv
    · exact hinv.rest .teardown
  | case5 | case6 => exact acted_aside h hi hinv
  | case7 =>
    rw [orderly, hi] at hok
    exact acted_purge h hi _ (by simpa using hok)
  | case8 => exact acted_update h hi _ hok
  | case9 =>
    rw [orderly, hi] at hok
    exact acted_close h hi _ (by simpa using hok)

end

variable {s' : Hub}

theorem at_inv (h : HubInv job s) {now : Int} (hnow : s.shared.clock ≤ now) :
    HubInv job ⟨s.shared.at now, s.calls⟩ :=
  ⟨⟨h.shared.due, h.shared.kept, h.shared.reopened⟩,
    fun l hl => (h.calls l hl).mono hnow fun _ _ => rfl, h.between⟩

theorem begin_inv (g : Store) (request : Request) : (begin job g request).Inv job g := by
  cases request with
  | once =>
    show g.clock - job.grace + job.grace ≤ g.clock
    omega
  | adminUpdate id status =>
    simp only [begin]
    split
    · split
      case isTrue hadmissible =>
        rintro rfl
        cases hadmissible
      case isFalse => trivial
    · trivial
  | softDelete id =>
    simp only [begin]
    split <;> trivial

theorem step_inv {e : Event Arrival Op} (h : HubInv job s) (hok : orderly s e)
    (hstep : step job s e = some s') : HubInv job s' := by
  obtain ⟨b, g, l, hstart⟩ | ⟨i, op, l, g, l', hi, hop⟩ := step_cases hstep
  · obtain ⟨hnow, hstart⟩ := Option.ite_none_left_eq_some.1 hstart
    cases hstart
    have hat := at_inv h (Int.not_lt.1 hnow)
    exact hat.begun hat.shared (begin_inv _ _) fun m _ hm => ⟨hm, trivial⟩
  · obtain ⟨hnow, hop⟩ := Option.ite_none_left_eq_some.1 hop
    have hat := at_inv h (Int.not_lt.1 hnow)
    have hok : orderly ⟨s.shared.at op.now, s.calls⟩ (.act i op) := hok
    exact operate_inv (s := ⟨s.shared.at op.now, s.calls⟩) hat hi hok hop

theorem initial_inv (accounts : Accounts) (servers : List String) (clock : Int) :
    HubInv job (initial accounts servers clock) :=
  Interleaving.Inv.nil
    { due := fun _ he => nomatch he
      kept := each_nil
      reopened := fun _ _ hrec => absurd hrec not_since_nil }

/-- In every run that keeps the order, whatever fails and whatever else is
interleaved, an account is destroyed only while it is stored as deleted for the grace
period, and never after it was recovered. -/
theorem destroyed_only_when_due (job : PurgeJob) (accounts : Accounts) (servers : List String)
    (clock : Int) {s : Hub}
    (hrun : Reaches (step job) (fun s e => orderly s e = true) (initial accounts servers clock) s) :
    DestroyedDue job.grace s.shared.log ∧ RecoveredKept s.shared.log := by
  have hinv : HubInv job s :=
    hrun.invariant (initial_inv accounts servers clock) fun _ _ _ => step_inv
  exact ⟨hinv.shared.due, hinv.shared.kept⟩

def twoClosed : Accounts := ⟨[⟨"acme", .deleted, some 0⟩, ⟨"beta", .deleted, some 5⟩], by decide⟩

/-- One account is recovered and closed again before the pass; the pass destroys the
other one. -/
def recoveredInTime : List (Event Arrival Op) :=
  [.start ⟨8, .adminUpdate "beta" (some .active)⟩, .act 0 ⟨9, .done⟩,
    .start ⟨20, .softDelete "beta"⟩, .act 1 ⟨20, .done⟩,
    .start ⟨24, .once⟩, .act 2 ⟨25, .done⟩, .act 2 ⟨26, .done⟩, .act 2 ⟨27, .lost⟩,
    .act 2 ⟨28, .done⟩, .act 2 ⟨29, .done⟩]

def recoveredInTimeLog : List Entry :=
  [.recovered "beta", .closed "beta",
    .tornDown "acme" 26 (some ⟨"acme", .deleted, some 0⟩),
    .purged "acme" 28 (some ⟨"acme", .deleted, some 0⟩)]

theorem destroyed_only_when_due_recoveredInTime :
    ∃ s : Hub, Reaches (step (newPurgeJob 10 true)) (fun s e => orderly s e = true)
        (initial twoClosed ["acme", "beta"] 0) s ∧
      s.shared.log = recoveredInTimeLog ∧ DestroyedDue 10 s.shared.log ∧
        RecoveredKept s.shared.log := by
  exact exists_reaches_and_of_decide recoveredInTime (by decide +kernel) fun _ hrun =>
    destroyed_only_when_due (newPurgeJob 10 true) twoClosed ["acme", "beta"] 0 hrun

def recoveredTooLate : List (Event Arrival Op) :=
  [.start ⟨24, .once⟩, .act 0 ⟨25, .done⟩, .start ⟨26, .adminUpdate "acme" (some .active)⟩,
    .act 1 ⟨26, .done⟩, .act 0 ⟨27, .done⟩, .act 0 ⟨28, .done⟩, .act 0 ⟨29, .done⟩]

/-- It is closed anew as well, and its new grace period has just begun. -/
def closedAnew : List (Event Arrival Op) :=
  [.start ⟨24, .once⟩, .act 0 ⟨25, .done⟩, .start ⟨26, .adminUpdate "acme" (some .active)⟩,
    .act 1 ⟨26, .done⟩, .start ⟨27, .softDelete "acme"⟩, .act 2 ⟨27, .done⟩,
    .act 0 ⟨28, .done⟩, .act 0 ⟨29, .done⟩, .act 0 ⟨30, .done⟩]

/-- Without the order, and with no operation failing, an account is destroyed after its
recovery, and one that was closed anew is destroyed at once. -/
theorem recovered_account_destroyed :
    (∃ s : Hub, Reaches (step (newPurgeJob 10 true)) (fun _ _ => True)
        (initial twoClosed ["acme", "beta"] 0) s ∧
      ¬DestroyedDue 10 s.shared.log ∧ ¬RecoveredKept s.shared.log) ∧
    ∃ s : Hub, Reaches (step (newPurgeJob 10 true)) (fun _ _ => True)
        (initial twoClosed ["acme", "beta"] 0) s ∧ ¬DestroyedDue 10 s.shared.log := by
  constructor
  · have hreplay : (replay (step (newPurgeJob 10 true)) (initial twoClosed ["acme", "beta"] 0)
        recoveredTooLate).map (fun s => s.shared.log) =
        some [.recovered "acme", .tornDown "acme" 27 (some ⟨"acme", .active, none⟩),
          .purged "acme" 29 (some ⟨"acme", .active, none⟩)] := by decide +kernel
    obtain ⟨s, hrun, hview⟩ := exists_reaches_of_replay hreplay
    refine ⟨s, hrun, ?_, ?_⟩
    · intro hdue
      rw [hview] at hdue
      obtain ⟨t, ht, -, hstatus, -⟩ := hdue _ (.tail _ (.head _)) "acme" 27 _ rfl
      cases ht
      cases hstatus
    · intro hkept
      rw [hview] at hkept
      apply hkept [.recovered "acme"] _ _ rfl "acme" 27 _ rfl
      exact ⟨[], _, [], rfl, rfl, fun _ h => nomatch h⟩
  · have hreplay : (replay (step (newPurgeJob 10 true)) (initial twoClosed ["acme", "beta"] 0)
        closedAnew).map (fun s => s.shared.log) =
        some [.recovered "acme", .closed "acme",
          .tornDown "acme" 28 (some ⟨"acme", .deleted, some 27⟩),
          .purged "acme" 30 (some ⟨"acme", .deleted, some 27⟩)] := by decide +kernel
    obtain ⟨s, hrun, hview⟩ := exists_reaches_of_replay hreplay
    refine ⟨s, hrun, fun hdue => ?_⟩
    rw [hview] at hdue
    obtain ⟨t, ht, -, -, stamp, hstamp, hle⟩ := hdue _ (.tail _ (.tail _ (.head _))) "acme" 28 _ rfl
    cases ht
    cases hstamp
    omega

end MeshsatHub.Offboarding
