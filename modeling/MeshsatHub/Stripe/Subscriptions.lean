import MeshsatHub.Stripe.Effects

/-!
# Several subscriptions of one tenant

A tenant has one plan and one subscription id, whatever number of subscriptions it has. The end of a
subscription is not compared with the id.
-/

namespace MeshsatHub.Stripe
open Runs List

structure SubscriptionEvent where
  deleted : Bool
  sub : Subscription
  now : Int

def SubscriptionEvent.live (e : SubscriptionEvent) : Bool := !e.deleted && e.sub.live

variable (h : Handler)

def Handler.applyTo (t : Tenant) (e : SubscriptionEvent) : Tenant :=
  ((h.onSubscription e.deleted e.sub t e.now).findSome? fun
    | .updateTenant t' => some t'
    | _ => none).getD t

def lastOf (events : List SubscriptionEvent) (id : String) : Option SubscriptionEvent :=
  (events.filter (·.sub.id = id)).getLast?

/-- A tenant and the events applied to it. -/
structure Subscriber where
  tenant : Tenant
  log : List SubscriptionEvent

variable (s : Subscriber)

def Handler.apply (e : SubscriptionEvent) : Option Subscriber :=
  some ⟨h.applyTo s.tenant e, s.log ++ [e]⟩

/-- The plan and the subscription are those of a live subscription, if there is one. -/
def Upheld : Prop :=
  (∃ id e, lastOf s.log id = some e ∧ e.live = true) →
    ∃ e, lastOf s.log s.tenant.stripeSubscriptionID = some e ∧ e.live = true ∧
      s.tenant.plan = h.planFor e.sub.priceID

/-- The price of a live subscription is known, and one that ends ends beside no live one. -/
def Handler.endsAlone (e : SubscriptionEvent) : Bool :=
  if e.live then h.planFor e.sub.priceID ≠ ""
  else s.log.all fun d => d.sub.id = e.sub.id || !(lastOf s.log d.sub.id).any (·.live)

variable {h : Handler} {events : List SubscriptionEvent} {e : SubscriptionEvent} {id : String}

theorem lastOf_append_self : lastOf (events ++ [e]) e.sub.id = some e := by
  simp [lastOf]

theorem lastOf_append_of_ne (hne : id ≠ e.sub.id) :
    lastOf (events ++ [e]) id = lastOf events id := by
  simp [lastOf, hne.symm]

/-- After every event of a run in which a subscription ends only beside none that is live, the plan
is that of a live subscription. -/
theorem live_plan_upheld {t : Tenant} {s : Subscriber}
    (hs : Reaches h.apply (fun s e => h.endsAlone s e = true) ⟨t, []⟩ s) : Upheld h s := by
  cases hs with
  | refl => exact fun ⟨_, _, hlast, _⟩ => nomatch hlast
  | @tail s _ e _ hok hstep =>
    cases hstep
    rintro ⟨id, d, hlast, hd⟩
    cases hlive : e.live with
    | true =>
      simp only [Handler.endsAlone, hlive, if_true, decide_eq_true_eq] at hok
      have happlied :
          h.applyTo s.tenant e = e.sub.grant (h.planFor e.sub.priceID) s.tenant e.now := by
        simp only [SubscriptionEvent.live, Bool.and_eq_true, Bool.not_eq_true'] at hlive
        simp [Handler.applyTo, Handler.onSubscription, hlive, hok]
      refine ⟨e, ?_, hlive, ?_⟩
      · simp [happlied, Subscription.grant, lastOf_append_self]
      · simp [happlied, Subscription.grant]
    | false =>
      have hne : id ≠ e.sub.id := by
        rintro rfl
        rw [lastOf_append_self] at hlast
        cases hlast
        cases hlive.symm.trans hd
      rw [lastOf_append_of_ne hne] at hlast
      obtain ⟨hmem, hid⟩ := mem_filter.1 (mem_of_getLast? hlast)
      simp only [decide_eq_true_eq] at hid
      simp only [Handler.endsAlone, hlive, Bool.false_eq_true, if_false, all_eq_true,
        Bool.or_eq_true, decide_eq_true_eq] at hok
      subst hid
      obtain heq | hended := hok d hmem
      · exact absurd heq hne
      · simp [hlast, hd] at hended

def crewSubscription (deleted : Bool) (id : String) : SubscriptionEvent :=
  ⟨deleted, ⟨id, "", "active", 0, [], [⟨"price_crew", 1000⟩]⟩, 0⟩

/-- A subscription ends, and then another one begins. -/
theorem live_plan_upheld_in_turn : ∃ s,
    Reaches crewHandler.apply (fun s e => crewHandler.endsAlone s e = true) ⟨acmeTenant, []⟩ s ∧
      s.tenant.plan = "crew" ∧ Upheld crewHandler s :=
  exists_reaches_and_of_decide
    [crewSubscription false "a", crewSubscription true "a", crewSubscription false "b"]
    (by decide +kernel) fun _ hs => live_plan_upheld hs

/-- The end of the old subscription comes after the new one, and ends the new one's plan. -/
theorem upgrade_ended : ∃ s, Reaches crewHandler.apply (fun _ _ => True) ⟨acmeTenant, []⟩ s ∧
    s.tenant.plan = free ∧ s.tenant.stripeSubscriptionID = "" ∧
      (lastOf s.log "b").any (·.live) = true ∧ lastOf s.log "" = none := by
  simp only [← Option.isNone_iff_eq_none]
  exact exists_reaches_of_decide
    [crewSubscription false "a", crewSubscription false "b", crewSubscription true "a"]
    (by decide +kernel)

end MeshsatHub.Stripe
