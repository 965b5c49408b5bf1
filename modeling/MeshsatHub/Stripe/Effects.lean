import MeshsatHub.Stripe.Deliveries

/-!
# An event that is answered with success has taken effect

In the life of an event nothing is recorded, or one delivery has recorded the id and is writing, or
everything is written. A delivery that comes in between takes the event for applied, and a write
that fails once is never made up for. `Handler.undisturbed` excludes both.
-/

namespace MeshsatHub.Stripe
open Interleaving Runs List

/-- What an event is about, in these books. -/
def Payload.target (p : Payload) (b : Books) : Option Found := p.lookups.findSome? (Lookup.run b)

/-- What is in the books after an event that was not applied before: the customer is bound and
the payment has its receipt, the plan is granted or ended, the refund is recorded. -/
def Handler.Effect (h : Handler) (ev : Event) (before after : Books) : Prop :=
  match ev.payload with
  | .checkout cs => ∀ t, ev.payload.target before = some (.tenant t) →
      (cs.customer ≠ "" →
        ∃ t' ∈ after.tenants, t'.id = t.id ∧ t'.stripeCustomerID = cs.customer) ∧
      (isOneOffPayment cs = true → h.hasReceipts = true → donationKey cs.paymentIntent cs.id ≠ "" →
        ∃ r ∈ after.receipts, r.deliveryKey = donationKey cs.paymentIntent cs.id)
  | .subscription deleted sub => ∀ t, ev.payload.target before = some (.tenant t) →
      if deleted || !sub.live then
        ∃ t' ∈ after.tenants, t'.id = t.id ∧ t'.planExpiresAt = none ∧
          (t.planExpiresAt ≠ none → t'.plan = free ∧ t'.stripeSubscriptionID = "")
      else h.planFor sub.priceID ≠ "" →
        ∃ t' ∈ after.tenants, t'.id = t.id ∧ t'.plan = h.planFor sub.priceID ∧
          t'.stripeSubscriptionID = sub.id ∧ t'.planExpiresAt ≠ none ∧
          (sub.periodEnd ≠ 0 → t'.planExpiresAt = some (sub.periodEnd + grace)) ∧
          (sub.customer ≠ "" → t'.stripeCustomerID = sub.customer)
  | .invoicePaid inv => ∀ t, ev.payload.target before = some (.tenant t) →
      inv.amountPaid > 0 → h.hasReceipts = true → invoiceKey inv.id ≠ "" →
        ∃ r ∈ after.receipts, r.deliveryKey = invoiceKey inv.id
  | .chargeRefunded ch => ∀ r, ev.payload.target before = some (.receipt r) →
      h.hasRefunds = true → h.hasReceipts = true → ch.amountRefunded > 0 →
        ∃ f ∈ after.refunds, f.receiptID = r.id

def Books.writeAll (b : Books) (ws : List Write) : Books := ws.foldl Books.write b

section
variable {b : Books}

theorem mem_tenants_update {t t₀ : Tenant} (h : t₀ ∈ b.tenants) (hid : t₀.id = t.id) :
    t ∈ (b.write (.updateTenant t)).tenants :=
  mem_map.2 ⟨t₀, h, if_pos hid⟩

theorem exists_receipt (r : Receipt) :
    ∃ r' ∈ (b.write (.createReceipt r)).receipts, r'.deliveryKey = r.deliveryKey := by
  simp only [Books.write]
  split
  next hany =>
    obtain ⟨r', hr', hkey⟩ := any_eq_true.1 hany
    exact ⟨r', hr', of_decide_eq_true hkey⟩
  next => exact ⟨r, mem_append_right _ (mem_singleton.2 rfl), rfl⟩

theorem exists_refund (r : Refund) :
    ∃ f ∈ (b.write (.createRefund r)).refunds, f.receiptID = r.receiptID := by
  simp only [Books.write]
  split
  next hany =>
    obtain ⟨f, hf, hid⟩ := any_eq_true.1 hany
    exact ⟨f, hf, of_decide_eq_true hid⟩
  next => exact ⟨r, mem_append_right _ (mem_singleton.2 rfl), rfl⟩

theorem tenants_createReceipt (r : Receipt) : (b.write (.createReceipt r)).tenants = b.tenants := by
  simp only [Books.write]
  split <;> rfl

theorem exists_receipt_of_record {h : Handler} {t : Tenant} {r : Receipt}
    (hreceipts : h.hasReceipts) (hkey : r.deliveryKey ≠ "") (hcents : 0 < r.amountCents) :
    ∃ r' ∈ (b.writeAll (h.recordReceipt t r)).receipts, r'.deliveryKey = r.deliveryKey := by
  have hguard : (!h.hasReceipts || decide (r.deliveryKey = "") || decide (r.amountCents ≤ 0)) =
      false := by
    simp [hreceipts, hkey, hcents]
  unfold Handler.recordReceipt
  rw [hguard]
  exact exists_receipt _

theorem tenants_recordReceipt (h : Handler) (t : Tenant) (r : Receipt) :
    (b.writeAll (h.recordReceipt t r)).tenants = b.tenants := by
  unfold Handler.recordReceipt
  split
  · rfl
  · exact tenants_createReceipt _

theorem writeAll_append (ws ws' : List Write) :
    b.writeAll (ws ++ ws') = (b.writeAll ws).writeAll ws' := foldl_append

variable {h : Handler} {ev : Event} {now : Int} {fresh : String}
variable {t : Tenant}

theorem mem_of_target {p : Payload} (htarget : p.target b = some (.tenant t)) : t ∈ b.tenants := by
  obtain ⟨q, -, hq⟩ := exists_of_findSome?_eq_some htarget
  cases q with
  | getTenant id | tenantByStripeCustomer c =>
    obtain ⟨t', ht', heq⟩ := Option.map_eq_some_iff.1 hq
    cases heq
    exact mem_of_find?_eq_some ht'
  | getReceiptByKey key | getReceiptByPaymentRef ref =>
    obtain ⟨r, -, heq⟩ := Option.map_eq_some_iff.1 hq
    cases heq

variable (cs : CheckoutSession)

theorem bind_id (t : Tenant) : (cs.bind h t).id = t.id := by
  unfold CheckoutSession.bind
  dsimp only
  split_ifs <;> rfl

theorem bind_customer (t : Tenant) (hcustomer : cs.customer ≠ "") :
    (cs.bind h t).stripeCustomerID = cs.customer := by
  unfold CheckoutSession.bind
  dsimp only
  rw [if_pos hcustomer]
  split_ifs <;> rfl

theorem mem_bind_of_checkout (ht : t ∈ b.tenants) :
    cs.bind h t ∈ (b.writeAll (h.onCheckout ev cs t fresh)).tenants := by
  have hfirst : cs.bind h t ∈
      (b.writeAll (if cs.bind h t = t then [] else [.updateTenant (cs.bind h t)])).tenants := by
    split
    next hsame => exact hsame.symm ▸ ht
    next => exact mem_tenants_update ht (bind_id cs t).symm
  unfold Handler.onCheckout
  rw [writeAll_append]
  by_cases honeOff : isOneOffPayment cs
  · rw [if_pos honeOff, Handler.donation, tenants_recordReceipt]
    exact hfirst
  · rw [if_neg honeOff]
    exact hfirst

theorem effect_of_checkout (ht : t ∈ b.tenants) :
    (cs.customer ≠ "" → ∃ t' ∈ (b.writeAll (h.onCheckout ev cs t fresh)).tenants,
        t'.id = t.id ∧ t'.stripeCustomerID = cs.customer) ∧
      (isOneOffPayment cs → h.hasReceipts → donationKey cs.paymentIntent cs.id ≠ "" →
        ∃ r ∈ (b.writeAll (h.onCheckout ev cs t fresh)).receipts,
          r.deliveryKey = donationKey cs.paymentIntent cs.id) := by
  constructor
  · intro hcustomer
    exact ⟨cs.bind h t, mem_bind_of_checkout cs ht, bind_id cs t, bind_customer cs t hcustomer⟩
  · intro honeOff hreceipts hkey
    have hcents : 0 < cs.amountTotal := by
      simp only [isOneOffPayment, Bool.and_eq_true, decide_eq_true_eq] at honeOff
      exact honeOff.2
    unfold Handler.onCheckout
    rw [writeAll_append, if_pos honeOff, Handler.donation]
    generalize donationKey cs.paymentIntent cs.id = key at hkey ⊢
    exact exists_receipt_of_record hreceipts hkey hcents

theorem effect_of_end (ht : t ∈ b.tenants) :
    ∃ t' ∈ (b.writeAll (endPlan t)).tenants, t'.id = t.id ∧ t'.planExpiresAt = none ∧
      (t.planExpiresAt ≠ none → t'.plan = free ∧ t'.stripeSubscriptionID = "") := by
  unfold endPlan
  split
  next hnone => exact ⟨t, ht, rfl, hnone, fun hsome => absurd hnone hsome⟩
  next =>
    refine ⟨{ t with plan := free, planExpiresAt := none, stripeSubscriptionID := "" },
      mem_tenants_update ht rfl, rfl, rfl, fun _ => ⟨rfl, rfl⟩⟩

theorem effect_of_grant (sub : Subscription) {plan : String} (ht : t ∈ b.tenants) :
    ∃ t' ∈ (b.writeAll [.updateTenant (sub.grant plan t now)]).tenants, t'.id = t.id ∧
      t'.plan = plan ∧ t'.stripeSubscriptionID = sub.id ∧ t'.planExpiresAt ≠ none ∧
      (sub.periodEnd ≠ 0 → t'.planExpiresAt = some (sub.periodEnd + grace)) ∧
      (sub.customer ≠ "" → t'.stripeCustomerID = sub.customer) := by
  refine ⟨sub.grant plan t now, mem_tenants_update ht rfl, rfl, rfl, rfl,
    Option.some_ne_none _, fun hend => ?_, fun hcustomer => if_pos hcustomer⟩
  simp only [Subscription.grant, Subscription.expires, if_neg hend]

theorem effect_of_work {found : Found} (htarget : ev.payload.target b = some found) :
    h.Effect ev b (b.writeAll (h.work ev now fresh found).2) := by
  unfold Handler.Effect
  split
  next cs hcs =>
    intro t ht
    cases htarget.symm.trans ht
    simp only [Handler.work, hcs]
    exact effect_of_checkout cs (mem_of_target ht)
  next deleted sub hsub =>
    intro t ht
    cases htarget.symm.trans ht
    simp only [Handler.work, hsub, Handler.onSubscription]
    split
    · exact effect_of_end (mem_of_target ht)
    · intro hplan
      rw [if_neg hplan]
      exact effect_of_grant sub (mem_of_target ht)
  next inv hinv =>
    intro t ht hpaid hreceipts hkey
    cases htarget.symm.trans ht
    simp only [Handler.work, hinv, Handler.onInvoicePaid]
    generalize invoiceKey inv.id = key at hkey ⊢
    exact exists_receipt_of_record hreceipts hkey hpaid
  next ch hch =>
    intro r hr _ _ _
    cases htarget.symm.trans hr
    simp only [Handler.work, hch]
    exact exists_refund _

theorem effect_of_ignored (hignored : h.ignores ev.payload) (after : Books) :
    h.Effect ev b after := by
  unfold Handler.Effect
  split
  next cs hcs =>
    rw [hcs] at hignored
    cases hignored
  next deleted sub hsub =>
    rw [hsub] at hignored
    cases hignored
  next inv hinv =>
    intro t _ hpaid
    rw [hinv] at hignored
    exact absurd hpaid (Int.not_lt.2 (of_decide_eq_true hignored))
  next ch hch =>
    intro r _ hrefunds hreceipts hamount
    rw [hch] at hignored
    simp only [Handler.ignores, hrefunds, hreceipts, Bool.not_true, Bool.false_or,
      decide_eq_true_eq] at hignored
    exact absurd hamount (Int.not_lt.2 hignored)

end

def Delivery.isWriting : Delivery → Bool
  | .writing _ => true
  | _ => false

def Delivery.succeeded : Delivery → Bool
  | .answered status => 200 ≤ status && status < 300
  | _ => false

section Life
variable (h : Handler) (ev : Event) (b₀ : Books) (found : Found)

/-- A delivery that comes to what the event is about, or to a failure. -/
def BeforeWriting : Delivery → Prop
  | .looking rest _ _ => rest.findSome? (Lookup.run b₀) = some found
  | .claiming _ writes => ∃ now fresh, writes = (h.work ev now fresh found).2
  | .writing _ => False
  | .answered status => status = 500

inductive Phase (s : System BillingStore Delivery) : Prop
  | untouched (hid : ev.id ∉ s.shared.events) (hbooks : s.shared.books = b₀)
      (hcalls : ∀ l ∈ s.calls, BeforeWriting h ev b₀ found l)
  | underway (i : Nat) (written rest : List Write) (now : Int) (fresh : String)
      (hid : ev.id ∈ s.shared.events) (hi : s.calls[i]? = some (.writing rest))
      (hothers : ∀ j l, j ≠ i → s.calls[j]? = some l → BeforeWriting h ev b₀ found l)
      (hbooks : s.shared.books = b₀.writeAll written)
      (hwork : (h.work ev now fresh found).2 = written ++ rest)
  | settled (now : Int) (fresh : String) (hid : ev.id ∈ s.shared.events)
      (hcalls : ∀ l ∈ s.calls, l.isWriting = false)
      (hbooks : s.shared.books = b₀.writeAll (h.work ev now fresh found).2)

end Life

/-- No look-up fails; recording the event id does not take effect and fail; what is written after
it is taken by the store and does not fail; and while one delivery is writing no other one looks
up or records anything. -/
def Handler.undisturbed (h : Handler) (s : System BillingStore Delivery) :
    Interleaving.Event Arrival Outcome → Bool
  | .start _ => true
  | .act i o =>
    match s.calls[i]? with
    | some (.looking (_ :: _) _ _) => o = .done && s.calls.all fun l => !l.isWriting
    | some (.claiming _ _) => o ≠ .unseen && s.calls.all fun l => !l.isWriting
    | some (.writing (w :: _)) => o = .done && w.accepted h s.shared.books
    | _ => true

variable {h : Handler} {ev : Event} {b₀ : Books} {found : Found}
  {s : System BillingStore Delivery} {i : Nat} {o : Outcome}
variable {l l' : Delivery} {g : BillingStore} {rest : List Write} {fresh : String}

theorem BeforeWriting.not_writing (hl : BeforeWriting h ev b₀ found l) : l.isWriting = false := by
  cases l with
  | writing ws => exact hl.elim
  | _ => rfl

theorem BeforeWriting.looked {q : Lookup} {rest : List Lookup} {now : Int}
    (hl : BeforeWriting h ev b₀ found (.looking (q :: rest) now fresh)) {g' : BillingStore}
    (hbooks : g.books = b₀)
    (hact : h.deliver ev g (.looking (q :: rest) now fresh) .done = some (g', l')) :
    g' = g ∧ BeforeWriting h ev b₀ found l' := by
  simp only [Handler.deliver, Outcome.ok, if_true, hbooks] at hact
  simp only [BeforeWriting, findSome?_cons] at hl
  cases hq : q.run b₀ with rw [hq] at hl hact
  | some f =>
    cases hl
    cases hact
    exact ⟨rfl, now, fresh, rfl⟩
  | none =>
    cases hact
    exact ⟨rfl, hl⟩

theorem untouched_step (hid : ev.id ∉ s.shared.events) (hbooks : s.shared.books = b₀)
    (hcalls : ∀ l ∈ s.calls, BeforeWriting h ev b₀ found l) (hclear : h.undisturbed s (.act i o))
    (hi : s.calls[i]? = some l) (hact : h.deliver ev s.shared l o = some (g, l')) :
    Phase h ev b₀ found ⟨g, s.calls.set i l'⟩ := by
  have hl := hcalls l (mem_of_getElem? hi)
  have hstill : g = s.shared → BeforeWriting h ev b₀ found l' →
      Phase h ev b₀ found ⟨g, s.calls.set i l'⟩ := by
    rintro rfl hl'
    exact .untouched hid hbooks (all_mem_set hcalls hl')
  simp only [Handler.undisturbed, hi] at hclear
  cases l with
  | answered status => cases hact
  | writing ws => exact hl.elim
  | looking rest now fresh =>
    cases rest with
    | nil => cases hl
    | cons q rest =>
      rw [Bool.and_eq_true, decide_eq_true_eq] at hclear
      rw [hclear.1] at hact
      obtain ⟨hg, hl'⟩ := hl.looked hbooks hact
      exact hstill hg hl'
  | claiming tenantID writes =>
    simp only [Handler.deliver] at hact
    rw [Bool.and_eq_true, decide_eq_true_eq] at hclear
    split at hact
    · cases hact
      exact hstill rfl rfl
    · split at hact
      · cases hact
        obtain ⟨now, fresh, hwrites⟩ := hl
        have hlt : i < s.calls.length := (List.getElem?_eq_some_iff.1 hi).1
        refine .underway i [] writes now fresh (mem_append_right _ (by simp))
          (getElem?_set_self hlt) ?_ hbooks hwrites.symm
        intro j m hj hm
        rw [getElem?_set_ne (Ne.symm hj)] at hm
        exact hcalls m (mem_of_getElem? hm)
      · next hfailed =>
        have hlost : ¬(o.effective ∧ ev.id ∉ s.shared.events) := by
          cases o with
          | done => exact absurd rfl hfailed
          | unseen => exact absurd rfl hclear.1
          | lost => simp [Outcome.effective]
        rw [if_neg hlost] at hact
        cases hact
        exact hstill rfl rfl

theorem underway_others {k : Nat} (hk : s.calls[k]? = some (.writing rest))
    (hi : s.calls[i]? = some l) (hl : BeforeWriting h ev b₀ found l)
    (hclear : h.undisturbed s (.act i o)) : h.deliver ev s.shared l o = none := by
  have hwriting : ¬(s.calls.all fun l => !l.isWriting) := by
    rw [all_eq_true]
    intro hnone
    cases hnone _ (mem_of_getElem? hk)
  simp only [Handler.undisturbed, hi] at hclear
  cases l with
  | answered status => rfl
  | writing ws => exact hl.elim
  | looking rest now fresh =>
    cases rest with
    | nil => cases hl
    | cons q rest =>
      rw [Bool.and_eq_true] at hclear
      exact absurd hclear.2 hwriting
  | claiming tenantID writes =>
    rw [Bool.and_eq_true] at hclear
    exact absurd hclear.2 hwriting

theorem underway_step {k : Nat} {written : List Write} {now : Int} (hid : ev.id ∈ s.shared.events)
    (hk : s.calls[k]? = some (.writing rest))
    (hothers : ∀ j l, j ≠ k → s.calls[j]? = some l → BeforeWriting h ev b₀ found l)
    (hbooks : s.shared.books = b₀.writeAll written)
    (hwork : (h.work ev now fresh found).2 = written ++ rest) (hclear : h.undisturbed s (.act i o))
    (hi : s.calls[i]? = some l) (hact : h.deliver ev s.shared l o = some (g, l')) :
    Phase h ev b₀ found ⟨g, s.calls.set i l'⟩ := by
  by_cases hik : i = k
  · subst hik
    cases hi.symm.trans hk
    have hlt : i < s.calls.length := (List.getElem?_eq_some_iff.1 hi).1
    have hothers' : ∀ x j m, j ≠ i → (s.calls.set i x)[j]? = some m →
        BeforeWriting h ev b₀ found m := by
      intro x j m hj hm
      rw [getElem?_set_ne (Ne.symm hj)] at hm
      exact hothers j m hj hm
    cases rest with
    | nil =>
      cases hact
      refine .settled now fresh hid ?_ (by rw [hbooks, hwork, append_nil])
      intro m hm
      obtain ⟨j, hj⟩ := getElem?_of_mem hm
      by_cases hji : j = i
      · subst hji
        rw [getElem?_set_self hlt] at hj
        cases hj
        rfl
      · exact (hothers' _ j m hji hj).not_writing
    | cons w rest =>
      simp only [Handler.undisturbed, hi, Bool.and_eq_true, decide_eq_true_eq] at hclear
      obtain ⟨rfl, haccepted⟩ := hclear
      simp only [Handler.deliver, haccepted, Outcome.effective, Outcome.ok, Bool.and_self,
        if_true] at hact
      cases hact
      refine .underway i (written ++ [w]) rest now fresh hid (getElem?_set_self hlt)
        (hothers' _) ?_ (by rw [hwork, append_assoc]; rfl)
      rw [writeAll_append, ← hbooks]
      rfl
  · have hnone := underway_others hk hi (hothers i l hik hi) hclear
    rw [hnone] at hact
    cases hact

theorem settled_step (hid : ev.id ∈ s.shared.events) (hl : l.isWriting = false)
    (hact : h.deliver ev s.shared l o = some (g, l')) : g = s.shared ∧ l'.isWriting = false := by
  cases l with
  | answered status => cases hact
  | writing ws => cases hl
  | looking rest now fresh =>
    cases rest with
    | nil =>
      cases hact
      refine ⟨rfl, ?_⟩
      unfold Handler.unresolved
      split
      · split <;> rfl
      · rfl
    | cons q rest =>
      simp only [Handler.deliver] at hact
      split at hact
      all_goals
        cases hact
        exact ⟨rfl, rfl⟩
  | claiming tenantID writes =>
    simp only [Handler.deliver, hid, not_true_eq_false, and_false, if_true, if_false] at hact
    split_ifs at hact
    all_goals
      cases hact
      exact ⟨rfl, rfl⟩

theorem phase_act (hphase : Phase h ev b₀ found s) (hclear : h.undisturbed s (.act i o))
    (hi : s.calls[i]? = some l) (hact : h.deliver ev s.shared l o = some (g, l')) :
    Phase h ev b₀ found ⟨g, s.calls.set i l'⟩ := by
  cases hphase with
  | untouched hid hbooks hcalls => exact untouched_step hid hbooks hcalls hclear hi hact
  | underway k written rest now fresh hid hk hothers hbooks hwork =>
    exact underway_step hid hk hothers hbooks hwork hclear hi hact
  | settled now fresh hid hcalls hbooks =>
    obtain ⟨rfl, hl'⟩ := settled_step hid (hcalls l (mem_of_getElem? hi)) hact
    exact .settled now fresh hid (all_mem_set hcalls hl') hbooks

theorem phase_arrive (hphase : Phase h ev b₀ found s) (htarget : ev.payload.target b₀ = some found)
    (now : Int) (fresh : String) :
    Phase h ev b₀ found ⟨s.shared, s.calls ++ [.looking ev.payload.lookups now fresh]⟩ := by
  cases hphase with
  | untouched hid hbooks hcalls =>
    refine .untouched hid hbooks fun m hm => ?_
    rcases mem_append.1 hm with hold | hnew
    · exact hcalls m hold
    · rw [mem_singleton.1 hnew]
      exact htarget
  | underway k written rest now' fresh' hid hk hothers hbooks hwork =>
    have hlt : k < s.calls.length := (List.getElem?_eq_some_iff.1 hk).1
    refine .underway k written rest now' fresh' hid ?_ ?_ hbooks hwork
    · rw [getElem?_append_left hlt]
      exact hk
    · intro j m hj hm
      by_cases hjlt : j < s.calls.length
      · rw [getElem?_append_left hjlt] at hm
        exact hothers j m hj hm
      · rw [getElem?_append_right (Nat.le_of_not_lt hjlt)] at hm
        have hmem := mem_of_getElem? hm
        rw [mem_singleton.1 hmem]
        exact htarget
  | settled now' fresh' hid hcalls hbooks =>
    refine .settled now' fresh' hid (fun m hm => ?_) hbooks
    rcases mem_append.1 hm with hold | hnew
    · exact hcalls m hold
    · rw [mem_singleton.1 hnew]
      rfl

theorem phase_of_reaches (hnew : ev.id ∉ g.events)
    (htarget : ev.payload.target g.books = some found) (hworks : h.ignores ev.payload = false)
    (hs : Reaches (step (h.program ev)) (fun s e => h.undisturbed s e) ⟨g, []⟩ s) :
    Phase h ev g.books found s := by
  refine hs.invariant ?_ ?_
  · exact .untouched hnew rfl nofun
  · intro t t' e hphase hclear hstep
    rcases step_cases hstep with ⟨a, g', l, hstart⟩ | ⟨i, o, l, g', l', hi, hact⟩
    · simp only [Handler.program, Handler.arrive, hworks, Bool.false_eq_true, if_false] at hstart
      cases hstart
      exact phase_arrive hphase htarget a.now a.fresh
    · exact phase_act hphase hclear hi hact

theorem Phase.books_of_succeeded (hphase : Phase h ev b₀ found s) (hl : l ∈ s.calls)
    (hok : l.succeeded) :
    ∃ now fresh, s.shared.books = b₀.writeAll (h.work ev now fresh found).2 := by
  have hnot : ¬BeforeWriting h ev b₀ found l := by
    intro hbefore
    cases l with
    | answered status =>
      obtain rfl : status = 500 := hbefore
      cases hok
    | _ => cases hok
  cases hphase with
  | untouched hid hbooks hcalls => exact absurd (hcalls l hl) hnot
  | underway k written rest now fresh hid hk hothers hbooks hwork =>
    obtain ⟨j, hj⟩ := getElem?_of_mem hl
    by_cases hjk : j = k
    · subst hjk
      cases hj.symm.trans hk
      cases hok
    · exact absurd (hothers j l hjk hj) hnot
  | settled now fresh hid hcalls hbooks => exact ⟨now, fresh, hbooks⟩

/-- In every run of deliveries that are not disturbed, an event that has been answered with a 2xx
status has taken effect. -/
theorem answered_event_took_effect (h : Handler) (ev : Event) {g : BillingStore}
    (hnew : ev.id ∉ g.events) (hfound : (ev.payload.target g.books).isSome = true)
    {s : System BillingStore Delivery}
    (hs : Reaches (step (h.program ev)) (fun s e => h.undisturbed s e = true) ⟨g, []⟩ s)
    {l : Delivery} (hl : l ∈ s.calls) (hok : l.succeeded = true) :
    h.Effect ev g.books s.shared.books := by
  obtain ⟨found, htarget⟩ := Option.isSome_iff_exists.1 hfound
  by_cases hignored : h.ignores ev.payload
  · exact effect_of_ignored hignored _
  · have hworks := Bool.eq_false_iff.2 hignored
    obtain ⟨now, fresh, hbooks⟩ :=
      (phase_of_reaches hnew htarget hworks hs).books_of_succeeded hl hok
    rw [hbooks]
    exact effect_of_work htarget

def crewHandler : Handler where
  prices := [("price_crew", "crew")]
  hasReceipts := true
  hasRefunds := true
  ownerEmail _ := ""
  toUpper s := s
  isAlpha2 _ := true

def acmeTenant : Tenant := ⟨"acme", "free", none, "", "", "", "", none, ""⟩

def acmeStore : BillingStore := ⟨⟨[acmeTenant], [], []⟩, []⟩

def crewEvent : Event :=
  ⟨"evt_1", 0, .subscription false
    ⟨"sub_1", "cus_1", "active", 0, [("tenant_id", "acme")], [⟨"price_crew", 1000⟩]⟩⟩

/-- A delivery grants the plan, and the next one finds the event applied. -/
theorem answered_event_took_effect_redelivered : ∃ s, Reaches (step (crewHandler.program crewEvent))
        (fun s e => crewHandler.undisturbed s e = true) ⟨acmeStore, []⟩ s ∧
      s.calls = [.answered 200, .answered 200] ∧
      crewHandler.Effect crewEvent acmeStore.books s.shared.books := by
  obtain ⟨s, hs, hcalls, hall⟩ := exists_reaches_and_of_decide
    (P := fun s => s.calls = [.answered 200, .answered 200])
    [.start ⟨7, "x"⟩, .act 0 .done, .act 0 .done, .act 0 .done, .act 0 .done, .start ⟨8, "y"⟩,
      .act 1 .done, .act 1 .done] (by decide +kernel)
    fun _ hs => @answered_event_took_effect crewHandler crewEvent acmeStore (by decide)
      (by decide +kernel) _ hs
  exact ⟨s, hs, hcalls, hall (l := .answered 200) (by simp [hcalls]) rfl⟩

/-- The write of the plan fails after the event id is recorded and the delivery is answered with
500; the redelivery is answered with 200, and the plan is never granted. -/
theorem failed_write_is_taken_for_applied :
    ¬∀ s, Reaches (step (crewHandler.program crewEvent)) (fun _ _ => True) ⟨acmeStore, []⟩ s →
      ∀ l ∈ s.calls, l.succeeded = true →
        crewHandler.Effect crewEvent acmeStore.books s.shared.books := by
  refine not_forall_of_decide (P := fun s => s.shared.books = ⟨[acmeTenant], [], []⟩ ∧
      s.calls = [.answered 500, .answered 200])
    [.start ⟨7, "x"⟩, .act 0 .done, .act 0 .done, .act 0 .lost, .start ⟨8, "y"⟩, .act 1 .done,
      .act 1 .done] (by decide +kernel) fun s ⟨hbooks, hcalls⟩ hall => ?_
  have heffect := hall (.answered 200) (by simp [hcalls]) rfl
  rw [hbooks] at heffect
  have htarget : crewEvent.payload.target acmeStore.books = some (.tenant acmeTenant) := by
    decide +kernel
  obtain ⟨t', ht', -, hplan, -⟩ := heffect acmeTenant htarget (by decide +kernel)
  rw [mem_singleton.1 ht'] at hplan
  revert hplan
  decide +kernel

end MeshsatHub.Stripe
