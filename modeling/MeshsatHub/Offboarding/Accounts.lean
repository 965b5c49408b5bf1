import Mathlib
import MeshsatHub.Foundations.Histories
import MeshsatHub.Foundations.Interleaving

/-!
# Closed accounts

The purge job's pass, the closing of an account and the administrator's update as sequences of
operations. A pass lists once the tenants closed for the grace period, and then destroys each;
setting an account active recovers it. `PurgeTenant` is one operation, and so is the teardown, which
may fail having destroyed the server. No operation looks at `log`.
-/

namespace MeshsatHub.Offboarding
open Histories Interleaving

inductive Status where
  | active
  | suspended
  | deleted
  deriving DecidableEq

structure Tenant where
  id : String
  status : Status
  deletedAt : Option Int
  deriving DecidableEq

def defaultTenantID : String := "default"

structure Accounts where
  rows : List Tenant
  keyed : (rows.map (·.id)).Nodup

variable (a : Accounts) (id : String)

def getTenant : Option Tenant := a.rows.find? fun t => t.id == id

def Tenant.rewrite (t : Tenant) (id : String) (status : Status) (deletedAt : Option Int) : Tenant :=
  if t.id = id then { t with status := status, deletedAt := deletedAt } else t

@[simp] theorem Tenant.rewrite_id (t : Tenant) (id : String) (status : Status)
    (deletedAt : Option Int) : (t.rewrite id status deletedAt).id = t.id := by
  unfold Tenant.rewrite
  split <;> rfl

def updateTenant (status : Status) (deletedAt : Option Int) : Accounts where
  rows := a.rows.map fun t => t.rewrite id status deletedAt
  keyed := by
    rw [List.map_map]
    simpa [Function.comp_def] using a.keyed

def softDeleteTenant (stamp : Int) : Accounts :=
  if id = defaultTenantID then a else updateTenant a id .deleted (some stamp)

def listTenantsDeletedBefore (cutoff : Int) : List Tenant :=
  (a.rows.filter fun t => t.status == .deleted && t.deletedAt.any (· < cutoff)).insertionSort
    fun t u => t.deletedAt.getD 0 ≤ u.deletedAt.getD 0

def purgeTenant : Accounts :=
  if id = defaultTenantID then a
  else ⟨a.rows.filter fun t => t.id != id, a.keyed.sublist (List.filter_sublist.map _)⟩

structure PurgeJob where
  grace : Int
  takInstances : Bool

/-- 30 days, in nanoseconds. -/
def purgeGrace : Int := 30 * 24 * 3600 * 1000000000

def newPurgeJob (grace : Int) (takInstances : Bool) : PurgeJob :=
  ⟨if grace ≤ 0 then purgeGrace else grace, takInstances⟩

/-- What has happened to the accounts: a server torn down or the rows destroyed, with
the time and the tenant's row then, and the writes that close or recover one. -/
inductive Entry where
  | tornDown (id : String) (now : Int) (row : Option Tenant)
  | purged (id : String) (now : Int) (row : Option Tenant)
  | closed (id : String)
  | recovered (id : String)
  deriving DecidableEq

/-- The accounts, the tenants with a TAK server, the time and the record. -/
structure Store where
  accounts : Accounts
  servers : List String
  clock : Int
  log : List Entry

/-- What a pass does next for the first tenant on its list. -/
inductive Stage where
  | teardown
  | audit
  | purge

inductive Call where
  | list (cutoff : Int)
  | sweep (cutoff : Int) (due : List Tenant) (stage : Stage)
  | update (row : Tenant) (status : Option Status)
  | close (id : String) (stamp : Int)
  | done

/-- What arrives. -/
inductive Request where
  | once
  | adminUpdate (id : String) (status : Option Status)
  | softDelete (id : String)

structure Arrival where
  now : Int
  request : Request

structure Op where
  now : Int
  outcome : Outcome

def admissible : Option Status → Bool
  | some .deleted => false
  | some .suspended => id != defaultTenantID
  | _ => true

variable (job : PurgeJob) (g : Store)

def begin : Request → Call
  | .once => .list (g.clock - job.grace)
  | .adminUpdate id status =>
    match getTenant g.accounts id with
    | some row => if admissible id status then .update row status else .done
    | none => .done
  | .softDelete id => if id = "" ∨ id = defaultTenantID then .done else .close id g.clock

variable (id : String)

/-- A teardown that takes effect destroys the tenant's server, if there is one. -/
def Store.tearDown (effective : Bool) : Store :=
  if effective ∧ id ≠ "" ∧ id ∈ g.servers then
    { g with
      servers := g.servers.filter (· != id)
      log := g.log ++ [.tornDown id g.clock (getTenant g.accounts id)] }
  else g

def Store.purge (effective : Bool) : Store :=
  if effective ∧ id ≠ defaultTenantID then
    { g with
      accounts := purgeTenant g.accounts id
      log := g.log ++ [.purged id g.clock (getTenant g.accounts id)] }
  else g

def Store.close (stamp : Int) (effective : Bool) : Store :=
  if effective then
    { g with
      accounts := softDeleteTenant g.accounts id stamp
      log := g.log ++ [.closed id] }
  else g

/-- The stamp an update writes: setting an account active clears it. -/
def Tenant.stamp (row : Tenant) (status : Option Status) : Option Int :=
  if status = some .active then none else row.deletedAt

def Store.update (row : Tenant) (status : Option Status) (effective : Bool) : Store :=
  if effective then
    { g with
      accounts := updateTenant g.accounts row.id (status.getD row.status) (row.stamp status)
      log := if status = some .active then g.log ++ [.recovered row.id] else g.log }
  else g

def operate (outcome : Outcome) : Call → Option (Store × Call)
  | .list cutoff =>
    if outcome.ok then
      some (g, .sweep cutoff
        ((listTenantsDeletedBefore g.accounts cutoff).filter fun t => t.id != defaultTenantID)
        .teardown)
    else some (g, .done)
  | .sweep _ [] _ => some (g, .done)
  | .sweep cutoff (t :: rest) .teardown =>
    if job.takInstances then
      some (g.tearDown t.id outcome.effective,
        if outcome.ok ∧ t.id ≠ "" then .sweep cutoff (t :: rest) .audit
        else .sweep cutoff rest .teardown)
    else some (g, .sweep cutoff (t :: rest) .audit)
  -- a failed audit line does not stop the purge
  | .sweep cutoff (t :: rest) .audit => some (g, .sweep cutoff (t :: rest) .purge)
  | .sweep cutoff (t :: rest) .purge =>
    some (g.purge t.id outcome.effective, .sweep cutoff rest .teardown)
  | .update row status => some (g.update row status outcome.effective, .done)
  | .close id stamp => some (g.close id stamp outcome.effective, .done)
  | .done => none

/-- Time has passed. -/
def Store.at (now : Int) : Store := { g with clock := now }

def handlers : Program Store Call Arrival Op where
  start g b := if b.now < g.clock then none else some (g.at b.now, begin job (g.at b.now) b.request)
  perform g l op := if op.now < g.clock then none else operate job (g.at op.now) op.outcome l

abbrev Hub := System Store Call

def initial (accounts : Accounts) (servers : List String) (clock : Int) : Hub :=
  ⟨⟨accounts, servers, clock, []⟩, []⟩

def step : Hub → Event Arrival Op → Option Hub := Interleaving.step (handlers job)

def Entry.destroys : Entry → Option (String × Int × Option Tenant)
  | .tornDown id now row => some (id, now, row)
  | .purged id now row => some (id, now, row)
  | _ => none

def Tenant.Due (t : Tenant) (grace now : Int) : Prop :=
  t.status = .deleted ∧ ∃ stamp, t.deletedAt = some stamp ∧ stamp + grace ≤ now

/-- What is destroyed is stored, at that moment, as deleted for the grace period. -/
def DestroyedDue (grace : Int) (log : List Entry) : Prop :=
  ∀ e ∈ log, ∀ id now row, e.destroys = some (id, now, row) →
    ∃ t, row = some t ∧ t.id = id ∧ t.Due grace now

def Recovered : List Entry → Prop :=
  Since (· = .recovered id) (· = .closed id)

/-- No account is destroyed after it was recovered, unless it was closed again. -/
def RecoveredKept : List Entry → Prop :=
  Each fun before e => ∀ id now row, e.destroys = some (id, now, row) → ¬Recovered id before

/-- A pass still has the tenant on its list. -/
def Call.listed : Call → Bool
  | .sweep _ due _ => due.any fun t => t.id == id
  | _ => false

def Hub.listed (s : Hub) (id : String) : Bool := s.calls.any (Call.listed id)

/-- No call but `i` has the tenant on its list. -/
def Hub.listedBesides (s : Hub) (i : Nat) (id : String) : Bool :=
  (s.calls.eraseIdx i).any (Call.listed id)

/-- The order in which the properties hold. A row is closed, or given another status,
only while no pass has the tenant on its list; rows are destroyed only while no other
pass has it on its list; and an update that asks for no status puts a closed row
back only where nothing has changed it. -/
def orderly (s : Hub) : Event Arrival Op → Bool
  | .start _ => true
  | .act i _ =>
    match s.calls[i]? with
    | some (.sweep _ (t :: _) .purge) => !s.listedBesides i t.id
    | some (.update row none) =>
      getTenant s.shared.accounts row.id == some row ||
        !s.listed row.id && row.status != .deleted
    | some (.update row (some _)) => !s.listed row.id
    | some (.close id _) => !s.listed id
    | _ => true

end MeshsatHub.Offboarding
