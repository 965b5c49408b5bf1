import MeshsatHub.Billing.Drainers

/-!
# A receipt and the refund of its payment

The drainer of the receipts makes an invoice and the drainer of the refunds credits it, or cancels
the receipt when there is none. They hold separate leases. A step is an operation that the other
pass or the result depends on, and does not fail.
-/

namespace MeshsatHub.Billing
open Runs

/-- How far the pass over the receipt is; the listed copy may have the reference. -/
inductive Issuing where
  | due
  | listed (ref : Bool)
  | created
  | stored
  | ended
  deriving DecidableEq

inductive Refunding where
  | due
  | crediting
  | rereading
  | blocking
  | marking
  | ended
  deriving DecidableEq

/-- The receipt, its invoice in the billing system, and whether its refund is issued, with a credit
number or without. -/
structure Payment where
  status : Status
  ref : Bool
  invoice : Bool
  refund : Option Bool
  issuing : Issuing
  refunding : Refunding

namespace Payment

def recorded (invoice : Bool) : Payment := ⟨.pending, invoice, invoice, none, .due, .due⟩

variable (s : Payment)

def blockReceipt : Payment :=
  { s with status := if s.status = .issued then .issued else .blocked }

/-- The pass over the receipt; what is not `billable` has no address or no country. -/
def issue (billable : Bool) (s : Payment) : Option Payment :=
  match s.issuing with
  | .due =>
    if s.status = .pending then some { s with issuing := .listed s.ref }
    else some { s with issuing := .ended }
  | .listed ref =>
    if !billable then some { s.blockReceipt with issuing := .ended }
    else if ref then some { s with issuing := .stored }
    else some { s with invoice := true, issuing := .created }
  | .created => some { s with ref := true, issuing := .stored }
  | .stored => some { s with status := .issued, ref := true, issuing := .ended }
  | .ended => none

/-- The pass over the refund; it is tried again when the reference is there at the second look. -/
def reverse : Option Payment :=
  match s.refunding with
  | .due =>
    if s.ref then some { s with refunding := .crediting }
    else some { s with refunding := .rereading }
  | .crediting => some { s with refund := some true, refunding := .ended }
  | .rereading =>
    if s.ref then some { s with refunding := .ended }
    else if s.status = .blocked then some { s with refunding := .marking }
    else some { s with refunding := .blocking }
  | .blocking => some { s.blockReceipt with refunding := .marking }
  | .marking => some { s with refund := some false, refunding := .ended }
  | .ended => none

def step (billable : Bool) (s : Payment) : Job → Option Payment
  | .receipts => s.issue billable
  | .refunds => s.reverse

def leftBilled : Bool :=
  s.invoice && (s.refund = some false || s.status = .blocked)

/-- The second look is not between the listing of the receipt and the storing of its reference, and
the receipt is not listed between the second look and the cancelling. -/
def apart : Job → Bool
  | .receipts => s.issuing = .due → s.refunding ≠ .blocking
  | .refunds => s.refunding = .rereading → s.issuing ≠ .listed false ∧ s.issuing ≠ .created

/-- The payment has no document, or is about to have none. -/
def Closing : Prop :=
  s.status = .blocked ∨ s.refunding = .blocking ∨ s.refunding = .marking ∨ s.refund = some false

structure Sound (billable : Bool) (s : Payment) : Prop where
  billed : s.invoice = true → billable = true
  invoiced : s.ref = true ∨ s.issuing = .created ∨ s.issuing = .stored → s.invoice = true
  stored : s.issuing = .listed true ∨ s.issuing = .stored ∨ s.status = .issued → s.ref = true
  unstored : s.invoice = true → s.ref = true ∨ s.issuing = .created
  closed : s.Closing → s.invoice = false ∧
    (s.issuing = .ended ∨ s.issuing = .due ∧ (s.status = .blocked ∨ s.refunding = .blocking))

variable {billable : Bool} {s s' : Payment}

theorem Sound.issue (h : s.Sound billable) (hapart : s.apart .receipts)
    (hs : s.issue billable = some s') : s'.Sound billable := by
  have hlisted {ref : Bool} (hi : s.issuing = .listed ref) : ¬s.Closing := fun hclosing => by
    simpa [hi] using (h.closed hclosing).2
  obtain ⟨hbilled, hinvoiced, hstored, hunstored, hclosed⟩ := h
  simp only [apart, decide_eq_true_eq] at hapart
  revert hs
  fun_cases Payment.issue billable s with rintro ⟨⟩
  | case1 hdue hpending =>
    -- a pending receipt is listed while no refund is about to cancel it
    have hopen : ¬s.Closing := fun hclosing => by simp_all
    exact ⟨hbilled, by simp_all, by simp_all, by simp_all, fun h => absurd h hopen⟩
  | case3 ref hi hbillable =>
    -- what is not billable has no invoice that blocking could leave behind
    have hnone : s.invoice = false := by simp_all
    constructor <;> simp_all [blockReceipt]
  | case5 ref hi hbillable href =>
    -- the invoice is made while nothing closes the payment
    exact ⟨fun _ => by simpa using hbillable, fun _ => rfl, by simp_all, fun _ => .inr rfl,
      fun h => absurd h (hlisted hi)⟩
  | case2 | case4 | case6 | case7 => constructor <;> simp_all [Closing]

theorem Sound.reverse (h : s.Sound billable) (hapart : s.apart .refunds)
    (hs : s.reverse = some s') : s'.Sound billable := by
  obtain ⟨hbilled, hinvoiced, hstored, hunstored, hclosed⟩ := h
  simp only [apart, decide_eq_true_eq] at hapart
  -- Where the pass over the receipt may be when the second look finds no reference.
  have hat (hreread : s.refunding = .rereading) (href : ¬s.ref = true) :
      s.invoice = false ∧ (s.issuing = .ended ∨ s.issuing = .due) := by
    obtain ⟨hlisted, hcreated⟩ := hapart hreread
    rcases hi : s.issuing with _ | (_ | _) | _ | _ | _ <;> simp_all
  revert hs
  fun_cases Payment.reverse s with rintro ⟨⟩
  | case3 =>
    refine ⟨hbilled, hinvoiced, hstored, hunstored, fun hclosing => ?_⟩
    have hblocked : s.status = .blocked := by simpa [Closing] using hclosing
    exact (hclosed (.inl hblocked)).imp_right (·.imp_right fun hdue => ⟨hdue.1, .inl hblocked⟩)
  | case5 hreread href hblocked =>
    exact ⟨hbilled, hinvoiced, hstored, hunstored,
      fun _ => ⟨(hat hreread href).1, (hat hreread href).2.imp_right (⟨·, .inl hblocked⟩)⟩⟩
  | case6 hreread href hblocked =>
    exact ⟨hbilled, hinvoiced, hstored, hunstored,
      fun _ => ⟨(hat hreread href).1, (hat hreread href).2.imp_right (⟨·, .inr rfl⟩)⟩⟩
  | case7 hblocking =>
    -- what is cancelled has no invoice, so it was not issued
    obtain ⟨hnone, hissuing⟩ := hclosed (.inr (.inl hblocking))
    constructor <;> simp_all [blockReceipt]
  | case1 | case2 | case4 | case8 => constructor <;> simp_all [Closing]

end Payment

/-- A payment is not left billed if the refund's second look does not fall between the listing and
the storing. -/
theorem not_left_billed {invoice : Bool} (hinvoice : invoice = true → billable = true)
    (hs : Reaches (Payment.step billable) (fun s job => s.apart job = true) (.recorded invoice) s) :
    s.leftBilled = false := by
  have hsound : s.Sound billable := by
    refine hs.invariant ?_ fun s job t h hapart hstep => ?_
    · refine ⟨hinvoice, ?_, ?_, ?_, ?_⟩ <;> simp [Payment.recorded, Payment.Closing]
    · cases job with
      | receipts => exact h.issue hapart hstep
      | refunds => exact h.reverse hapart hstep
  by_contra hbilled
  simp only [Payment.leftBilled, Bool.not_eq_false, Bool.and_eq_true, Bool.or_eq_true,
    decide_eq_true_eq] at hbilled
  have hclosing : s.Closing := hbilled.2.elim (fun h => .inr (.inr (.inr h))) .inl
  cases hbilled.1.symm.trans (hsound.closed hclosing).1

/-- The invoice is made first, and the refund credits it. -/
theorem not_left_billed_credited : ∃ s,
    Reaches (Payment.step true) (fun s job => s.apart job = true) (.recorded false) s ∧
      (s.refund = some true ∧ s.issuing = .ended) ∧ s.leftBilled = false :=
  exists_reaches_and_of_decide [.receipts, .receipts, .receipts, .refunds, .receipts, .refunds]
    (by decide +kernel) fun _ hs => not_left_billed (fun _ => rfl) hs

/-- The refund looks twice before the reference is stored: the invoice stays. -/
theorem left_billed : ∃ s, Reaches (Payment.step true) (fun _ _ => True) (.recorded false) s ∧
    s.issuing = .ended ∧ s.refunding = .ended ∧ s.leftBilled = true :=
  exists_reaches_of_decide
    [.receipts, .refunds, .refunds, .receipts, .refunds, .refunds, .receipts, .receipts]
    (by decide +kernel)

end MeshsatHub.Billing
