import MeshsatHub.Foundations.Interleaving
import MeshsatHub.Foundations.Strings

/-!
# Applying a Stripe event

A delivery finds the tenant or the receipt the event is about, records the event id (`once`), and
then writes what the event stands for; one that finds the id recorded answers 200 and writes
nothing. An operation can fail, and it can take effect and be reported as failed. Case mapping,
country codes and owners' addresses are parameters.
-/

namespace MeshsatHub.Stripe
open Interleaving Strings

structure Tenant where
  id : String
  plan : String
  planExpiresAt : Option Int
  stripeCustomerID : String
  stripeSubscriptionID : String
  billingCountry : String
  billingCountryEvidence : String
  lapseWarnedAt : Option Int
  ownerUserID : String
  deriving DecidableEq

structure Receipt where
  id : String
  tenantID : String
  deliveryKey : String
  transactionID : String
  country : String
  email : String
  name : String
  amountCents : Int
  currency : String
  plan : String
  tierName : String
  paidAt : Int
  paymentRef : String
  deriving DecidableEq

structure Refund where
  id : String
  tenantID : String
  receiptID : String
  amountCents : Int
  currency : String
  country : String
  reason : String
  refundedAt : Int
  deriving DecidableEq

/-- What the effects of events are written to. -/
structure Books where
  tenants : List Tenant
  receipts : List Receipt
  refunds : List Refund
  deriving DecidableEq

structure BillingStore where
  books : Books
  /-- The ids in `stripe_events`. -/
  events : List String

abbrev Metadata := List (String × String)

def Metadata.at (m : Metadata) (key : String) : String := (m.lookup key).getD ""

structure CheckoutSession where
  id : String
  customer : String
  paymentIntent : String
  mode : String
  amountTotal : Int
  currency : String
  customerEmail : String
  metadata : Metadata
  detailsEmail : String
  detailsName : String
  detailsCountry : String

structure SubscriptionItem where
  priceID : String
  currentPeriodEnd : Int

structure Subscription where
  id : String
  customer : String
  status : String
  currentPeriodEnd : Int
  metadata : Metadata
  items : List SubscriptionItem

structure InvoiceLine where
  pricing : String
  price : String

structure Invoice where
  id : String
  customer : String
  metadata : Metadata
  amountPaid : Int
  currency : String
  customerEmail : String
  customerName : String
  created : Int
  addressCountry : String
  lines : List InvoiceLine

structure Charge where
  id : String
  invoice : String
  paymentIntent : String
  amountRefunded : Int
  currency : String

inductive Payload where
  | checkout (cs : CheckoutSession)
  | subscription (deleted : Bool) (sub : Subscription)
  | invoicePaid (inv : Invoice)
  | chargeRefunded (ch : Charge)

structure Event where
  id : String
  created : Int
  payload : Payload

structure Handler where
  prices : Metadata
  hasReceipts : Bool
  hasRefunds : Bool
  ownerEmail : Tenant → String
  toUpper : String → String
  isAlpha2 : String → Bool

def firstNonEmpty (vals : List String) : String :=
  (vals.find? fun v => trimSpace v ≠ "").getD ""

def CheckoutSession.email (cs : CheckoutSession) : String :=
  if trimSpace cs.detailsEmail ≠ "" then trimSpace cs.detailsEmail else trimSpace cs.customerEmail

variable (h : Handler)

def CheckoutSession.country (cs : CheckoutSession) : String :=
  h.toUpper (trimSpace cs.detailsCountry)

def Subscription.priceID (sub : Subscription) : String :=
  match sub.items with
  | [] => ""
  | item :: _ => item.priceID

variable (sub : Subscription)

def Subscription.periodEnd : Int :=
  match sub.items with
  | [] => sub.currentPeriodEnd
  | item :: _ => if item.currentPeriodEnd ≠ 0 then item.currentPeriodEnd else sub.currentPeriodEnd

def Subscription.live : Bool :=
  sub.status ∈ ["active", "trialing", "past_due", "unpaid"]

variable (inv : Invoice)

def Invoice.country : String :=
  h.toUpper (trimSpace inv.addressCountry)

def Invoice.priceID : String :=
  match inv.lines with
  | [] => ""
  | l :: _ => if trimSpace l.pricing ≠ "" then trimSpace l.pricing else l.price

def Invoice.paidAt (now : Int) : Int :=
  if inv.created = 0 then now else inv.created

def isOneOffPayment (cs : CheckoutSession) : Bool := cs.mode = "payment" && cs.amountTotal > 0

def isAnonymousDonation (cs : CheckoutSession) : Bool :=
  isOneOffPayment cs && cs.metadata.at "kind" = "donation"

def Handler.planFor (priceID : String) : String := h.prices.at (trimSpace priceID)

def tierName (plan : String) : String :=
  if plan = "crew" then "Crew" else if plan = "fleet" then "Fleet" else ""

def free : String := "free"

def donationPlan : String := "donation"

def defaultTenantID : String := "default"

/-- Three days, in seconds. -/
def grace : Int := 3 * 24 * 3600

/-- Thirty-two days, in seconds. -/
def period : Int := 32 * 24 * 3600

def invoiceKey (invoiceID : String) : String :=
  if trimSpace invoiceID = "" then "" else "stripe:inv:" ++ invoiceID

def donationKey (paymentIntent sessionID : String) : String :=
  if trimSpace paymentIntent ≠ "" then "stripe:pi:" ++ trimSpace paymentIntent
  else if trimSpace sessionID ≠ "" then "stripe:cs:" ++ trimSpace sessionID
  else ""

inductive Lookup where
  | getTenant (id : String)
  | tenantByStripeCustomer (customerID : String)
  | getReceiptByKey (key : String)
  | getReceiptByPaymentRef (ref : String)
  deriving DecidableEq

inductive Found where
  | tenant (t : Tenant)
  | receipt (r : Receipt)
  deriving DecidableEq

def Lookup.run (b : Books) : Lookup → Option Found
  | .getTenant id => (b.tenants.find? fun t => t.id = id).map .tenant
  | .tenantByStripeCustomer c => (b.tenants.find? fun t => t.stripeCustomerID = c).map .tenant
  | .getReceiptByKey key => (b.receipts.find? fun r => r.deliveryKey = key).map .receipt
  | .getReceiptByPaymentRef ref => (b.receipts.find? fun r => r.paymentRef = ref).map .receipt

def tenantFor (metadata : Metadata) (customerID : String) : List Lookup :=
  (if trimSpace (metadata.at "tenant_id") = "" then []
    else [.getTenant (trimSpace (metadata.at "tenant_id"))]) ++
  if trimSpace customerID = "" then [] else [.tenantByStripeCustomer (trimSpace customerID)]

/-- The look-ups of an event, of which the first that finds something counts. -/
def Payload.lookups : Payload → List Lookup
  | .checkout cs => tenantFor cs.metadata cs.customer
  | .subscription _ sub => tenantFor sub.metadata sub.customer
  | .invoicePaid inv => tenantFor inv.metadata inv.customer
  | .chargeRefunded ch =>
    (([invoiceKey ch.invoice, donationKey ch.paymentIntent ""].filter fun key =>
      key ≠ "").map .getReceiptByKey) ++
    if ch.paymentIntent = "" then [] else [.getReceiptByPaymentRef ch.paymentIntent]

/-- Whether an event is answered before anything is looked up. -/
def Handler.ignores : Payload → Bool
  | .invoicePaid inv => inv.amountPaid ≤ 0
  | .chargeRefunded ch => !h.hasRefunds || !h.hasReceipts || ch.amountRefunded ≤ 0
  | _ => false

inductive Write where
  | updateTenant (t : Tenant)
  | createReceipt (r : Receipt)
  | createRefund (r : Refund)
  deriving DecidableEq

def Handler.recordReceipt (t : Tenant) (r : Receipt) : List Write :=
  if !h.hasReceipts || r.deliveryKey = "" || r.amountCents ≤ 0 then []
  else
    let email := if trimSpace r.email = "" then h.ownerEmail t else trimSpace r.email
    [.createReceipt { r with tenantID := t.id, email, currency := h.toUpper r.currency }]

variable (ev : Event) (cs : CheckoutSession) (t : Tenant) (fresh : String)

def Handler.donation : List Write :=
  h.recordReceipt t
    { id := fresh, tenantID := t.id, deliveryKey := donationKey cs.paymentIntent cs.id,
      transactionID := cs.paymentIntent,
      country := firstNonEmpty [t.billingCountry, cs.country h], email := cs.email,
      name := cs.detailsName, amountCents := cs.amountTotal, currency := cs.currency,
      plan := donationPlan, tierName := "Donation", paidAt := ev.created, paymentRef := "" }

def CheckoutSession.bind : Tenant :=
  let t := if cs.customer ≠ "" then { t with stripeCustomerID := cs.customer } else t
  if t.billingCountry = "" ∧ cs.country h ≠ "" then
    { t with
      billingCountry := cs.country h
      billingCountryEvidence := "billing address at Stripe checkout " ++ cs.id }
  else t

def Handler.onCheckout : List Write :=
  let t' := cs.bind h t
  (if t' = t then [] else [.updateTenant t']) ++
    if isOneOffPayment cs then h.donation ev cs t' fresh else []

def endPlan : List Write :=
  if t.planExpiresAt = none then []
  else
    [.updateTenant { t with plan := free, planExpiresAt := none, stripeSubscriptionID := "" }]

/-- Until when a subscription grants its plan. -/
def Subscription.expires (now : Int) : Int :=
  (if sub.periodEnd = 0 then now + period else sub.periodEnd) + grace

def Subscription.grant (plan : String) (t : Tenant) (now : Int) : Tenant :=
  { t with
    plan
    planExpiresAt := some (sub.expires now)
    stripeSubscriptionID := sub.id
    stripeCustomerID := if sub.customer ≠ "" then sub.customer else t.stripeCustomerID
    lapseWarnedAt := none }

def Handler.onSubscription (deleted : Bool) (sub : Subscription) (t : Tenant)
    (now : Int) : List Write :=
  if deleted || !sub.live then endPlan t
  -- A price that is not mapped is left to a person.
  else if h.planFor sub.priceID = "" then []
  else [.updateTenant (sub.grant (h.planFor sub.priceID) t now)]

def Handler.onInvoicePaid (now : Int) (fresh : String) : List Write :=
  h.recordReceipt t
    { id := fresh, tenantID := t.id, deliveryKey := invoiceKey inv.id, transactionID := inv.id,
      country := firstNonEmpty [t.billingCountry, inv.country h], email := inv.customerEmail,
      name := inv.customerName, amountCents := inv.amountPaid, currency := inv.currency,
      plan := firstNonEmpty [h.planFor inv.priceID, t.plan],
      tierName := tierName (h.planFor inv.priceID), paidAt := inv.paidAt now, paymentRef := "" }

def Handler.onChargeRefunded (ch : Charge) (r : Receipt) (now : Int)
    (fresh : String) : List Write :=
  [.createRefund
    { id := fresh, tenantID := r.tenantID, receiptID := r.id, amountCents := ch.amountRefunded,
      currency := h.toUpper r.currency, country := r.country,
      reason := "refunded in Stripe (charge " ++ ch.id ++ ")", refundedAt := now }]

def Handler.work (now : Int) (fresh : String) : Found → String × List Write
  | .tenant t =>
    match ev.payload with
    | .checkout cs => (t.id, h.onCheckout ev cs t fresh)
    | .subscription deleted sub => (t.id, h.onSubscription deleted sub t now)
    | .invoicePaid inv => (t.id, h.onInvoicePaid inv t now fresh)
    | .chargeRefunded _ => (t.id, [])
  | .receipt r =>
    match ev.payload with
    | .chargeRefunded ch => (r.tenantID, h.onChargeRefunded ch r now fresh)
    | _ => (r.tenantID, [])

/-- The donation of somebody without an account is filed under the platform tenant. -/
def Handler.anonymousDonation : String × List Write :=
  (defaultTenantID,
    h.donation ev cs ⟨defaultTenantID, "", none, "", "", "", "", none, ""⟩ fresh)

def Write.accepted (b : Books) : Write → Bool
  | .updateTenant t =>
    (t.billingCountry = "" || h.isAlpha2 t.billingCountry) &&
      (t.stripeCustomerID = "" ||
        !b.tenants.any fun t' => t'.id ≠ t.id && t'.stripeCustomerID = t.stripeCustomerID)
  | .createReceipt r => r.deliveryKey ≠ ""
  | .createRefund r => r.receiptID ≠ ""

def Books.write (b : Books) : Write → Books
  | .updateTenant t => { b with tenants := b.tenants.map fun t' => if t'.id = t.id then t else t' }
  | .createReceipt r =>
    if b.receipts.any (·.deliveryKey = r.deliveryKey) then b
    else { b with receipts := b.receipts ++ [r] }
  | .createRefund r =>
    if b.refunds.any (·.receiptID = r.receiptID) then b
    else { b with refunds := b.refunds ++ [r] }

/-- Whether a failure of the write is answered with 500. A receipt that could not be filed is
only logged. -/
def Write.failureReturned : Write → Bool
  | .createReceipt _ => false
  | _ => true

inductive Delivery where
  | looking (rest : List Lookup) (now : Int) (fresh : String)
  /-- `ApplyStripeEvent` is next. -/
  | claiming (tenantID : String) (writes : List Write)
  /-- The event id is recorded, and these are to be written. -/
  | writing (writes : List Write)
  | answered (status : Nat)
  deriving DecidableEq

/-- What follows when nothing is found. -/
def Handler.unresolved : Delivery :=
  match ev.payload with
  | .checkout cs =>
    if isAnonymousDonation cs then
      .claiming (h.anonymousDonation ev cs fresh).1 (h.anonymousDonation ev cs fresh).2
    else .answered 200
  | _ => .answered 200

def Handler.deliver (g : BillingStore) (l : Delivery) (o : Outcome) :
    Option (BillingStore × Delivery) :=
  match l with
  | .looking [] _ fresh => some (g, h.unresolved ev fresh)
  | .looking (q :: rest) now fresh =>
    -- A look-up that fails is taken for one that finds nothing.
    match if o.ok then q.run g.books else none with
    | some found => some (g, .claiming (h.work ev now fresh found).1 (h.work ev now fresh found).2)
    | none => some (g, .looking rest now fresh)
  | .claiming _ writes =>
    if trimSpace ev.id = "" then some (g, .answered 500)
    else if o.ok then
      if ev.id ∈ g.events then some (g, .answered 200)
      else some ({ g with events := g.events ++ [ev.id] }, .writing writes)
    else if o.effective ∧ ev.id ∉ g.events then
      some ({ g with events := g.events ++ [ev.id] }, .answered 500)
    else some (g, .answered 500)
  | .writing [] => some (g, .answered 200)
  | .writing (w :: rest) =>
    let g' := if o.effective && w.accepted h g.books then
      { g with books := g.books.write w } else g
    if o.ok && w.accepted h g.books then some (g', .writing rest)
    else if w.failureReturned then some (g', .answered 500)
    else some (g', .writing rest)
  | .answered _ => none

/-- A delivery begins, with the clock and the id that the handler draws. -/
structure Arrival where
  now : Int
  fresh : String

def Handler.arrive (g : BillingStore) (a : Arrival) : Option (BillingStore × Delivery) :=
  if h.ignores ev.payload then some (g, .answered 200)
  else some (g, .looking ev.payload.lookups a.now a.fresh)

def Handler.program : Program BillingStore Delivery Arrival Outcome where
  start := h.arrive ev
  perform := h.deliver ev

end MeshsatHub.Stripe
