import Mathlib
import MeshsatHub.Foundations.Tables

/-!
# The alerts table

Alerts and the statements the engine runs on them. `advanceAlert` is a compare-and-set on
`next_esc_at` that finds open alerts only. `Evolves` is what all statements have in common. A store
keeps whole microseconds or seconds.
-/

namespace MeshsatHub.Escalation
open Tables List Option

inductive AlertState where
  | triggered
  | escalating
  | acknowledged
  | exhausted
  | cancelled
  deriving DecidableEq

def AlertState.isOpen : AlertState → Bool
  | .triggered | .escalating => true
  | _ => false

structure Alert where
  id : String
  tenantID : String
  chainID : String
  deviceIMEI : String
  type : String
  detail : String
  state : AlertState
  currentTier : Nat
  retries : Nat
  ackedBy : String
  ackedAt : Option Int
  nextEscAt : Int
  createdAt : Int
  updatedAt : Int

/-- The two stores; they differ in the times they can keep. -/
inductive Driver where
  | postgres
  | sqlite

def Driver.unit : Driver → Int
  | .postgres => 1000
  | .sqlite => 1000000000

def Driver.kept (d : Driver) (time : Int) : Int := time / d.unit * d.unit

abbrev Alerts := Table Alert.id

section Statements
variable (d : Driver)

/-- `WHERE id = … AND tenant_id = …`; an empty tenant matches any. -/
def Alert.named (r : Alert) (tenantID id : String) : Bool :=
  r.id == id && (tenantID == "" || r.tenantID == tenantID)

variable (t : Alerts)

def getAlert (tenantID id : String) : Option Alert :=
  t.rows.find? fun r => r.named tenantID id

/-- The row that `CreateAlert` writes. -/
def Alert.inserted (a : Alert) (tenantID : String) : Alert :=
  { a with
    tenantID := tenantID
    ackedAt := a.ackedAt.map d.kept
    nextEscAt := d.kept a.nextEscAt
    createdAt := d.kept a.createdAt
    updatedAt := d.kept a.updatedAt }

variable (tenantID : String)

def createAlert (a : Alert) : Option Alerts :=
  t.insert (a.inserted d tenantID)

/-- The columns that `UpdateAlert` and `AdvanceAlert` write. -/
def Alert.written (a r : Alert) : Alert :=
  { r with
    state := a.state
    currentTier := a.currentTier
    retries := a.retries
    ackedBy := a.ackedBy
    ackedAt := a.ackedAt.map d.kept
    nextEscAt := d.kept a.nextEscAt
    updatedAt := d.kept a.updatedAt }

@[simp] theorem Alert.written_id (a r : Alert) : (a.written d r).id = r.id := rfl

/-- An update writes whatever it is given. -/
def updateAlert (a : Alert) : Alerts :=
  t.write (fun r => r.named tenantID a.id) (a.written d) (a.written_id d)

def Alert.advances (r : Alert) (tenantID id : String) (expectedNextEscAt : Int) : Bool :=
  r.named tenantID id && r.nextEscAt == d.kept expectedNextEscAt && r.state.isOpen

/-- The second part of the answer is whether it found the row. -/
def advanceAlert (a : Alert) (expectedNextEscAt : Int) : Alerts × Bool :=
  (t.write (fun r => r.advances d tenantID a.id expectedNextEscAt) (a.written d) (a.written_id d),
    t.rows.any fun r => r.advances d tenantID a.id expectedNextEscAt)

/-- `ListAlerts` for every tenant and the open alerts only. -/
def listAlerts (limit : Nat) : List Alert :=
  ((t.rows.filter fun r => r.state.isOpen).insertionSort
    fun r r' => r'.createdAt ≤ r.createdAt).take limit

end Statements

variable {d : Driver} {t t' : Alerts} {tenantID id y : String} {a r : Alert} {expected : Int}

theorem Driver.unit_pos (d : Driver) : 0 < d.unit := by cases d <;> decide

theorem Driver.kept_le (d : Driver) (time : Int) : d.kept time ≤ time :=
  Int.ediv_mul_le time (ne_of_gt d.unit_pos)

theorem Driver.kept_mono (d : Driver) {time time' : Int} (h : time ≤ time') :
    d.kept time ≤ d.kept time' :=
  Int.mul_le_mul_of_nonneg_right (Int.ediv_le_ediv d.unit_pos h) d.unit_pos.le

theorem named_iff : r.named tenantID id ↔ r.id = id ∧ (tenantID = "" ∨ r.tenantID = tenantID) := by
  simp [Alert.named]

theorem advances_iff : r.advances d tenantID id expected ↔
      r.named tenantID id ∧ r.nextEscAt = d.kept expected ∧ r.state.isOpen := by
  simp [Alert.advances, and_assoc]

theorem at_of_getAlert (h : getAlert t tenantID id = some r) :
    t.at id = some r ∧ r.named tenantID id :=
  at_of_find (fun _ hnamed => (named_iff.1 hnamed).1) h

theorem not_named_of_getAlert (h : getAlert t tenantID id = none) (hat : t.at id = some r) :
    r.named tenantID id = false := by
  simpa using find?_eq_none.1 h r (mem_of_at hat)

theorem advanceAlert_won : (advanceAlert d t tenantID a expected).2 ↔
      ∃ r, t.at a.id = some r ∧ r.advances d tenantID a.id expected :=
  any_iff fun _ hadvances => (named_iff.1 (advances_iff.1 hadvances).1).1

theorem at_advanceAlert_ne (hy : y ≠ a.id) :
    (advanceAlert d t tenantID a expected).1.at y = t.at y := by
  apply at_write_ne (a.written_id d) _ hy
  exact fun r hadvances => (named_iff.1 (advances_iff.1 hadvances).1).1

theorem at_advanceAlert_of_advances (hat : t.at a.id = some r)
    (h : r.advances d tenantID a.id expected) :
    (advanceAlert d t tenantID a expected).1.at a.id = some (a.written d r) := by
  rw [advanceAlert, at_write, hat, map_some, if_pos h]

theorem at_advanceAlert_of_lost
    (h : ∀ r, t.at a.id = some r → r.advances d tenantID a.id expected = false) :
    (advanceAlert d t tenantID a expected).1.at y = t.at y := by
  by_cases hy : y = a.id
  · subst hy
    rw [advanceAlert, at_write]
    cases hat : t.at a.id with
    | none => rfl
    | some r => rw [map_some, h r hat, if_neg Bool.false_ne_true]
  · exact at_advanceAlert_ne hy

theorem at_of_mem_listAlerts {limit : Nat} (h : r ∈ listAlerts t limit) :
    t.at r.id = some r ∧ r.state.isOpen := by
  have hmem := (mem_insertionSort _).1 (mem_of_mem_take h)
  obtain ⟨hrow, hopen⟩ := mem_filter.1 hmem
  exact ⟨at_of_mem hrow, hopen⟩

variable {t'' : Alerts}

/-- Alerts stay where they are, and closed ones stay closed. -/
def Evolves (t t' : Alerts) : Prop :=
  ∀ x r, t.at x = some r → ∃ r', t'.at x = some r' ∧
    (r'.tenantID = r.tenantID ∧ r'.chainID = r.chainID) ∧
    (r.state.isOpen = false → r'.state.isOpen = false)

theorem Evolves.refl (t : Alerts) : Evolves t t := fun _ r hr => ⟨r, hr, ⟨rfl, rfl⟩, id⟩

theorem Evolves.trans (h : Evolves t t') (h' : Evolves t' t'') : Evolves t t'' := by
  intro x r hr
  obtain ⟨r', hr', ⟨htenant, hchain⟩, hclosed⟩ := h x r hr
  obtain ⟨r'', hr'', ⟨htenant', hchain'⟩, hclosed'⟩ := h' x r' hr'
  exact ⟨r'', hr'', ⟨htenant'.trans htenant, hchain'.trans hchain⟩,
    fun hopen => hclosed' (hclosed hopen)⟩

theorem evolves_write {selects : Alert → Bool}
    (h : ∀ r, selects r → r.state.isOpen ∨ a.state.isOpen = false) :
    Evolves t (t.write selects (a.written d) (a.written_id d)) := by
  intro x r hr
  rw [at_write, hr, map_some]
  by_cases hselects : selects r
  · rw [if_pos hselects]
    refine ⟨_, rfl, ⟨rfl, rfl⟩, fun hclosed => ?_⟩
    obtain hopen | hcloses := h r hselects
    · rw [hclosed] at hopen
      cases hopen
    · exact hcloses
  · rw [if_neg hselects]
    exact ⟨r, rfl, ⟨rfl, rfl⟩, id⟩

theorem evolves_advanceAlert (expected : Int) :
    Evolves t (advanceAlert d t tenantID a expected).1 :=
  evolves_write fun _ hadvances => .inl (advances_iff.1 hadvances).2.2

theorem evolves_updateAlert (h : a.state.isOpen = false) : Evolves t (updateAlert d t tenantID a) :=
  evolves_write fun _ _ => .inr h

theorem evolves_createAlert (h : createAlert d t tenantID a = some t') : Evolves t t' := by
  intro x r hr
  obtain ⟨hnone, hat⟩ := at_insert h
  have hx : x ≠ (a.inserted d tenantID).id := by
    rintro rfl
    rw [hnone] at hr
    cases hr
  exact ⟨r, by rw [hat, if_neg hx, hr], ⟨rfl, rfl⟩, id⟩

end MeshsatHub.Escalation
