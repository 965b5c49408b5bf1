import MeshsatHub.Escalation.Engine

/-!
# What the engine's answers stand for

A caller of `TriggerOnce` that is answered without an error may rely on the alert being stored, and
a caller of `Close` on its being stored and closed.
-/

namespace MeshsatHub.Escalation
open Tables Interleaving
variable {e : Engine} {g g' : Store} {c c' : Call} {op : Op} {tenantID x owner : String} {a : Alert}

def Owned (t : Alerts) (tenantID x : String) : Prop := ∀ r, t.at x = some r → r.tenantID = tenantID

def ClosedAt (t : Alerts) (x : String) : Prop := ∃ r, t.at x = some r ∧ r.state.isOpen = false

theorem ClosedAt.evolves {t t' : Alerts} (h : ClosedAt t x) (hevolves : Evolves t t') :
    ClosedAt t' x := by
  obtain ⟨r, hat, hclosed⟩ := h
  obtain ⟨r', hat', -, hstays⟩ := hevolves x r hat
  exact ⟨r', hat', hstays hclosed⟩

theorem Op.reads_eq_some {A : Type} {answer : Option A} {a : A} (h : op.reads answer = some a) :
    answer = some a := by
  unfold Op.reads at h
  split at h
  · exact h
  · cases h

theorem Op.writes_of_ok {A : Type} {before after : A} (h : op.outcome.ok) :
    op.writes before after = after := by
  unfold Op.writes
  cases hout : op.outcome with
  | done => rfl
  | lost | unseen =>
    rw [hout] at h
    cases h

/-- A call of `TriggerOnce` for the alert under an id. -/
inductive Raising (tenantID x : String) : Call → Prop
  | checking {a : Alert} (hid : a.id = x) : Raising tenantID x (.checking tenantID a)
  | creating {a : Alert} (hid : a.id = x) : Raising tenantID x (.creating tenantID a true)
  | rechecking {a : Alert} (hid : a.id = x) : Raising tenantID x (.rechecking tenantID a)

theorem raising_begin (hid : a.id = x) (hx : x ≠ "") :
    Raising tenantID x (Request.triggerOnce tenantID a).begin := by
  rw [Request.begin, if_neg (hid ▸ hx)]
  exact .checking hid

theorem Raising.inserts (h : Raising tenantID x c) (hx : x ≠ "") {now : Int}
    (ha : c.inserts now = some (owner, a)) : owner = tenantID ∧ a.id = x := by
  cases h with cases ha
  | creating hid =>
    refine ⟨rfl, ?_⟩
    rw [Alert.raised, if_neg (hid ▸ hx), hid]

theorem Raising.perform (h : Raising tenantID x c) (hx : x ≠ "")
    (hperform : perform e g c op = some (g', c')) :
    Raising tenantID x c' ∨ c' = .returned none ∨
      ∃ b, c' = .returned (some b) ∧ ∃ r, g'.alerts.at x = some r := by
  cases h with simp only [Escalation.perform] at hperform
  | checking hid =>
    split at hperform
    case h_1 r hread =>
      cases hperform
      exact .inr (.inr ⟨false, rfl, r, hid ▸ (at_of_getAlert (Op.reads_eq_some hread)).1⟩)
    case h_2 =>
      cases hperform
      exact .inl (.creating hid)
  | @creating a hid =>
    split at hperform
    · cases hperform
      exact .inl (.rechecking hid)
    case h_2 alerts hcreate =>
      cases hperform
      split
      case isTrue hok =>
        refine .inr (.inr ⟨true, rfl, ?_⟩)
        have hraised : (a.raised op.now).id = x := by
          rw [Alert.raised, if_neg (hid ▸ hx), hid]
        refine ⟨(a.raised op.now).inserted e.driver tenantID, ?_⟩
        rw [Op.writes_of_ok hok, (at_insert hcreate).2]
        exact if_pos hraised.symm
      case isFalse => exact .inl (.rechecking hid)
  | rechecking hid =>
    split at hperform
    case h_1 r hread =>
      cases hperform
      exact .inr (.inr ⟨false, rfl, r, hid ▸ (at_of_getAlert (Op.reads_eq_some hread)).1⟩)
    case h_2 =>
      cases hperform
      exact .inr (.inl rfl)

/-- A call of `Close` for the alert under an id; one that is about to update it has found
it. -/
inductive Closing (t : Alerts) (tenantID x : String) : Call → Prop
  | closing {a : Alert} {who : String} {rounds : Nat} (hid : a.id = x) :
      Closing t tenantID x (.closing tenantID a who rounds)
  | burying {a : Alert} {who : String} {rounds : Nat} (hid : a.id = x) :
      Closing t tenantID x (.burying tenantID a who rounds)
  | updating {a r : Alert} {who : String} {now : Int} (hid : a.id = x) (hat : t.at x = some r) :
      Closing t tenantID x (.updating tenantID a .cancelled who now)

theorem Closing.evolves {t t' : Alerts} (h : Closing t tenantID x c) (hevolves : Evolves t t') :
    Closing t' tenantID x c := by
  cases h with
  | closing hid => exact .closing hid
  | burying hid => exact .burying hid
  | updating hid hat =>
    obtain ⟨r', hat', -⟩ := hevolves x _ hat
    exact .updating hid hat'

theorem Closing.inserts {t : Alerts} (h : Closing t tenantID x c) {now : Int}
    (ha : c.inserts now = some (owner, a)) : owner = tenantID ∧ a.id = x := by
  cases h with cases ha
  | burying hid => exact ⟨rfl, hid⟩

theorem Closing.perform (h : Closing g.alerts tenantID x c) (howned : Owned g.alerts tenantID x)
    (hperform : perform e g c op = some (g', c')) :
    Closing g'.alerts tenantID x c' ∨ c' = .returned none ∨
      ∃ b, c' = .returned (some b) ∧ ClosedAt g'.alerts x := by
  cases h with
  | @closing a who rounds hid =>
    simp only [Escalation.perform] at hperform
    split at hperform
    · split at hperform
      case h_1 existing hread =>
        cases hperform
        obtain ⟨hat, -⟩ := at_of_getAlert hread
        rw [hid] at hat
        unfold close
        split
        case isTrue hstate =>
          refine .inr (.inr ⟨false, rfl, existing, hat, ?_⟩)
          rw [hstate]
          rfl
        case isFalse => exact .inl (.updating (key_of_at hat) hat)
      case h_2 =>
        cases hperform
        exact .inl (.burying hid)
    · cases hperform
      exact .inr (.inl rfl)
  | @burying a who rounds hid =>
    simp only [Escalation.perform] at hperform
    split at hperform
    · cases hperform
      split
      · exact .inr (.inl rfl)
      · exact .inl (.closing hid)
    case h_2 alerts hcreate =>
      cases hperform
      split
      case isTrue hok =>
        refine .inr (.inr ⟨true, rfl, (a.tombstone who op.now).inserted e.driver tenantID, ?_, rfl⟩)
        rw [Op.writes_of_ok hok, (at_insert hcreate).2]
        exact if_pos hid.symm
      case isFalse =>
        split
        · exact .inr (.inl rfl)
        · exact .inl (.closing hid)
  | @updating a r who now hid hat =>
    cases hperform
    split
    case isTrue hok =>
      refine .inr (.inr ⟨true, rfl, (a.closed .cancelled who now).written e.driver r, ?_, rfl⟩)
      have hnamed : r.named tenantID (a.closed .cancelled who now).id :=
        named_iff.2 ⟨(key_of_at hat).trans hid.symm, .inr (howned r hat)⟩
      rw [Op.writes_of_ok hok, updateAlert, at_write, hat, Option.map_some, if_pos hnamed]
    case isFalse => exact .inr (.inl rfl)

/-- A call that neither raises nor closes an alert by its id. -/
def Call.silent : Call → Bool
  | .checking _ _ | .creating _ _ _ | .rechecking _ _ | .closing _ _ _ _ | .burying _ _ _ _ => false
  | _ => true

@[simp] theorem silent_nextDue (now : Int) (rest : List Alert) : (nextDue now rest).silent := by
  induction rest with
  | nil => rfl
  | cons a rest ih =>
    unfold nextDue
    split
    · exact ih
    · rfl

@[simp] theorem silent_close (tenantID : String) (a : Alert) (how : Closure) (who : String)
    (now : Int) (again : Bool) : (close tenantID a how who now again).silent := by
  unfold close
  split <;> rfl

theorem inserts_of_silent (h : c.silent) (now : Int) : c.inserts now = none := by
  cases c with
  | creating tenantID a once | burying tenantID a who rounds => cases h
  | _ => rfl

theorem silent_perform (h : c.silent) (hperform : perform e g c op = some (g', c')) :
    c'.silent := by
  revert hperform
  fun_cases perform e g c op with
  | case7 | case9 =>
    rintro ⟨⟩
    exact silent_close ..
  | case18 =>
    rintro ⟨⟩
    split
    · exact silent_nextDue ..
    · rfl
  | case22 | case24 | case26 =>
    rintro ⟨⟩
    exact silent_nextDue ..
  | case8 | case10 | case11 | case17 | case19 | case20 | case21 | case23 | case25 =>
    rintro ⟨⟩
    rfl
  | case27 => rintro ⟨⟩
  | _ => cases h

end MeshsatHub.Escalation
