import MeshsatHub.Foundations.Interleaving

/-!
# Drainers of the billing outboxes

Receipts and refunds wait in rows until a drainer has made their document. The claim looks at the
lease only, and a document whose reference was not stored is made again. One row is looked at; a
lease is taken from a drainer only when that has stopped or failed to release it.
-/

namespace MeshsatHub.Billing
open Interleaving Runs

inductive Status where
  | pending
  | issued
  | blocked
  deriving DecidableEq

/-- A row of an outbox, with the reference of its document. -/
structure Row where
  status : Status
  ref : Option Nat
  deriving DecidableEq

inductive Lease where
  | free
  | held
  /-- Not released: it expires. -/
  | abandoned
  deriving DecidableEq

/-- The row, the documents made for it, and how often its period was taken back. -/
structure Books where
  row : Row
  lease : Lease
  documents : Nat
  reversals : Nat

inductive Job where
  | receipts
  | refunds
  deriving DecidableEq

inductive Stage where
  | listed (copy : Row)
  | claimed (copy : Row)
  /-- The document is made, its reference not stored. -/
  | created (id : Nat)
  | stored (id : Nat)
  | marked
  | releasing
  | ended
  deriving DecidableEq

inductive Op where
  | claim (o : Outcome)
  /-- `resumeOrCreate` -/
  | document (o : Outcome)
  | setRef (o : Outcome)
  | markIssued (o : Outcome)
  /-- `closeWithoutDocument` -/
  | close (o : Outcome)
  | reversePlan (moves : Bool) (o : Outcome)
  /-- The attempt is noted, or the row is blocked. -/
  | giveUp (blocks : Bool)
  | release (o : Outcome)
  | stop

variable (g : Books)

/-- `ListDueReceipts`, `ListDueRefunds` -/
def list (_ : Unit) : Option (Books × Stage) :=
  some (g, if g.row.status = .pending ∧ g.lease ≠ .held then .listed g.row else .ended)

/-- The pass has the lease. -/
def Stage.holds : Stage → Bool
  | .listed _ | .ended => false
  | _ => true

/-- The document may still fail to be made or recorded. -/
def Stage.issuing : Stage → Bool
  | .claimed _ | .created _ | .stored _ => true
  | _ => false

def Books.block (job : Job) : Books :=
  if job = .receipts ∧ g.row.status = .issued then g
  else { g with row := { g.row with status := .blocked } }

/-- A write of the store, if it takes effect. -/
def Books.write (o : Outcome) (row : Row) : Books :=
  if o.effective then { g with row := row } else g

/-- The next operation of a pass. -/
def perform (job : Job) (g : Books) (l : Stage) : Op → Option (Books × Stage)
  | .claim o =>
    match l with
    | .listed copy =>
      if g.lease = .held ∨ o = .lost then some (g, .ended)
      else if o.ok then some ({ g with lease := .held }, .claimed copy)
      else some ({ g with lease := .abandoned }, .ended)
    | _ => none
  | .document o =>
    match l with
    | .claimed ⟨_, some id⟩ => some (g, if o.ok then .stored id else .releasing)
    | .claimed ⟨_, none⟩ =>
      some (if o.effective then { g with documents := g.documents + 1 } else g,
        if o.ok then .created g.documents else .releasing)
    | _ => none
  | .setRef o =>
    match l with
    | .created id =>
      some (g.write o { g.row with ref := some id }, if o.ok then .stored id else .releasing)
    | _ => none
  | .markIssued o =>
    match l with
    | .stored id =>
      some (g.write o ⟨.issued, some id⟩,
        if o.ok ∧ job = .refunds then .marked else .releasing)
    | _ => none
  | .close o =>
    match l with
    | .claimed _ =>
      if job = .refunds then
        some (g.write o ⟨.issued, none⟩, if o.ok then .marked else .releasing)
      else none
    | _ => none
  | .reversePlan moves o =>
    if l = .marked then
      some (if moves ∧ o.effective then { g with reversals := g.reversals + 1 } else g, .releasing)
    else none
  | .giveUp blocks =>
    if l.issuing then some (if blocks then g.block job else g, .releasing) else none
  | .release o =>
    if l = .releasing then
      some ({ g with lease := if o.effective then .free else .abandoned }, .ended)
    else none
  | .stop => some (if l.holds then { g with lease := .abandoned } else g, .ended)

def drainers (job : Job) : Program Books Stage Unit Op := ⟨list, perform job⟩

def recorded : System Books Stage := ⟨⟨⟨.pending, none⟩, .free, 0, 0⟩, []⟩

def Books.keeps : Stage → Op → Bool
  | .listed copy, .claim _ => copy = g.row || g.lease = .held
  | .claimed copy, .document o => copy.ref.isSome || o ≠ .unseen
  | .created _, .setRef o => o ≠ .lost
  | .created _, .giveUp _ | .created _, .stop => false
  | _, _ => true

/-- The condition on a step. -/
def keeps (s : System Books Stage) : Event Unit Op → Bool
  | .start _ => true
  | .act i op => s.calls[i]?.all fun l => s.shared.keeps l op

/-- A row that can be listed has the reference of its document and the whole period. -/
def Books.Ready : Prop :=
  g.row.status = .pending → (g.documents = 0 ∨ g.row.ref ≠ none) ∧ g.reversals = 0

structure Books.Sound (g : Books) : Prop where
  documents : g.documents ≤ 1
  reversals : g.reversals ≤ 1
  ready : g.lease ≠ .held → g.Ready

def Stage.Sound : Stage → Prop
  | .listed copy => copy.status = .pending
  | .claimed copy => copy = g.row ∧ g.row.status = .pending ∧ g.Ready
  | .created _ => g.documents = 1 ∧ g.reversals = 0
  | .stored _ => (g.documents = 0 ∨ g.row.ref ≠ none) ∧ g.reversals = 0
  | .marked => g.row.status ≠ .pending ∧ g.reversals = 0
  | .releasing => g.Ready
  | .ended => True

def Stage.Local (l : Stage) : Prop := (l.holds → g.lease = .held) ∧ l.Sound g

/-- One pass at most has the lease. -/
def Stage.Beside (l m : Stage) : Prop := ¬ (l.holds ∧ m.holds)

instance : Std.Symm Stage.Beside := ⟨fun _ _ hb hboth => hb hboth.symm⟩

variable {job : Job} {g g' : Books} {l l' m : Stage} {s : System Books Stage} {op : Op}

theorem Stage.Local.of_not_holds (h : l.Local g) (hl : l.holds = false) : l.Local g' := by
  cases l with
  | listed copy => exact ⟨nofun, h.2⟩
  | ended => exact ⟨nofun, trivial⟩
  | _ => cases hl

theorem perform_aside (hl : l.holds = false) (hheld : g.lease = .held)
    (h : perform job g l op = some (g', l')) : g' = g ∧ l'.holds = false := by
  have hsame : g' = g ∧ l' = .ended := by
    cases l with
    | listed copy | ended => cases op <;> simp_all [perform, Stage.issuing, Stage.holds]
    | _ => cases hl
  exact ⟨hsame.1, hsame.2 ▸ rfl⟩

attribute [local grind] perform Books.keeps Books.write Books.block Books.Ready Stage.Sound
  Stage.Local Stage.holds Stage.issuing Outcome.ok Outcome.effective

theorem perform_sound (hg : g.Sound) (hl : l.Local g) (hkeeps : g.keeps l op)
    (h : perform job g l op = some (g', l')) : g'.Sound ∧ l'.Local g' := by
  obtain ⟨hdocuments, hreversals, hready⟩ := hg
  suffices h : (g'.documents ≤ 1 ∧ g'.reversals ≤ 1 ∧ (g'.lease ≠ .held → g'.Ready)) ∧ l'.Local g'
    from ⟨⟨h.1.1, h.1.2.1, h.1.2.2⟩, h.2⟩
  revert h
  fun_cases perform job g l op with
  | case4 | case7 | case9 | case11 | case13 | case14 | case16 | case18 | case20 => rintro ⟨⟩
  | case1 | case2 | case3 =>
    -- The claim is of the row as it is, so what holds of a free row holds of the copy.
    grind
  | case5 o | case6 o => cases o <;> grind
  | case8 =>
    -- The pass goes on until the reference is in the row.
    grind
  | case17 | case21 => cases l <;> grind
  | _ => grind

theorem sound_of_reaches (h : Reaches (step (drainers job)) (fun s e => keeps s e) recorded s) :
    s.shared.Sound := by
  have hinv : Inv Books.Sound Stage.Local Stage.Beside s := by
    refine h.invariant (.nil ⟨Nat.zero_le _, Nat.zero_le _, fun _ _ => ⟨.inl rfl, rfl⟩⟩) ?_
    intro s e t h hkeeps hstep
    obtain ⟨_, g, l, hlist⟩ | ⟨i, op, l, g, l', hi, hperform⟩ := step_cases hstep
    · cases hlist
      refine h.begun h.shared ?_ fun m _ hm => ⟨hm, ?_⟩
      · split
        · next hdue => exact ⟨nofun, hdue.1⟩
        · exact ⟨nofun, trivial⟩
      · split <;> exact fun hboth => nomatch hboth.2
    · have hl := h.call hi
      rw [keeps, hi] at hkeeps
      obtain ⟨hshared, hlocal⟩ := perform_sound h.shared hl hkeeps hperform
      refine h.acted hi hshared hlocal fun m _ hm hbeside => ?_
      cases hholds : m.holds with
      | false => exact ⟨hm.of_not_holds hholds, fun hboth => by simp [hholds] at hboth⟩
      | true =>
        have hl : l.holds = false := Bool.eq_false_iff.2 fun hl => hbeside ⟨hl, hholds⟩
        obtain ⟨rfl, hl'⟩ := perform_aside hl (hm.1 hholds) hperform
        exact ⟨hm, fun hboth => by simp [hl'] at hboth⟩
  exact hinv.shared

/-- In every run whose steps meet the condition, one invoice at most is made for a receipt. -/
theorem one_invoice
    (h : Reaches (step (drainers .receipts)) (fun s e => keeps s e = true) recorded s) :
    s.shared.documents ≤ 1 :=
  (sound_of_reaches h).documents

/-- A pass that fails to record its invoice, and one that goes on with it. -/
theorem one_invoice_resumed :
    ∃ s, Reaches (step (drainers .receipts)) (fun s e => keeps s e = true) recorded s ∧
      s.shared.row = ⟨.issued, some 0⟩ ∧ s.shared.documents ≤ 1 := by
  exact exists_reaches_and_of_decide
    [.start (), .act 0 (.claim .done), .act 0 (.document .done), .act 0 (.setRef .unseen),
      .act 0 (.release .lost), .start (), .act 1 (.claim .done), .act 1 (.document .done),
      .act 1 (.markIssued .done), .act 1 (.release .done)]
    (by decide +kernel) fun _ hs => one_invoice hs

/-- A whole pass over a row. -/
def pass (i : Nat) : List (Event Unit Op) :=
  [.act i (.claim .done), .act i (.document .done), .act i (.setRef .done),
    .act i (.markIssued .done)]

/-- Two passes list the row; the second claims it when the first has issued it. -/
theorem two_invoices : ∃ s, Reaches (step (drainers .receipts)) (fun _ _ => True) recorded s ∧
      s.shared.documents = 2 := by
  exact exists_reaches_of_decide
    ([.start (), .start ()] ++ pass 0 ++ [.act 0 (.release .done)] ++ pass 1) (by decide +kernel)

/-- In every run whose steps meet the condition, one credit note at most is made for a refund
and its period is taken back once at most. -/
theorem one_credit_note
    (h : Reaches (step (drainers .refunds)) (fun s e => keeps s e = true) recorded s) :
    s.shared.documents ≤ 1 ∧ s.shared.reversals ≤ 1 :=
  ⟨(sound_of_reaches h).documents, (sound_of_reaches h).reversals⟩

/-- A pass that gives up on a credit note, and one that records it and moves the plan. -/
theorem one_credit_note_resumed :
    ∃ s, Reaches (step (drainers .refunds)) (fun s e => keeps s e = true) recorded s ∧
      s.shared.reversals = 1 ∧ s.shared.documents ≤ 1 ∧ s.shared.reversals ≤ 1 := by
  exact exists_reaches_and_of_decide
    [.start (), .act 0 (.claim .done), .act 0 (.document .done), .act 0 (.setRef .done),
      .act 0 (.giveUp false), .act 0 (.release .done), .start (), .act 1 (.claim .done),
      .act 1 (.document .done), .act 1 (.markIssued .done), .act 1 (.reversePlan true .done),
      .act 1 (.release .done)]
    (by decide +kernel) fun _ hs => one_credit_note hs

/-- Two passes list the refund: both make a credit note and both move the plan. -/
theorem two_credit_notes : ∃ s, Reaches (step (drainers .refunds)) (fun _ _ => True) recorded s ∧
      s.shared.documents = 2 ∧ s.shared.reversals = 2 := by
  exact exists_reaches_of_decide
    ([.start (), .start ()] ++ pass 0 ++ [.act 0 (.reversePlan true .done),
      .act 0 (.release .done)] ++ pass 1 ++ [.act 1 (.reversePlan true .done)])
    (by decide +kernel)

end MeshsatHub.Billing
