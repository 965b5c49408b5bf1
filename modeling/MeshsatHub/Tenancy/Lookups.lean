import MeshsatHub.Tenancy.Resolver

/-!
# Lookups that fail

A device whose lookup fails is treated as one nobody has registered, a tenant whose lookup fails as
one that does not exist. `Registry.rightful` is the tenant of a webhook URL, or for the platform's
own URL, written as the empty tenant, the owner of record.
-/

namespace MeshsatHub.Tenancy
open Topics

/-- Which lookups of one call fail, and when the call is made. -/
structure Failures where
  now : Nat
  device : Bool
  tenant : Bool

def Registry.failing (reg : Registry) (f : Failures) : Env where
  now := f.now
  lookupDeviceTenant := fun id =>
    if f.device then .failed else (reg.env f.now).lookupDeviceTenant id
  lookupBridgeTenant := (reg.env f.now).lookupBridgeTenant
  getTenant := fun id => if f.tenant then .failed else (reg.env f.now).getTenant id

def authTenant (url : String) : String := if url = "" then defaultTenant else url

/-- The tenant a message belongs to: the one whose URL it arrived at, and at the
platform's URL the one that has registered the device. -/
def Registry.rightful (reg : Registry) (url id : String) : String :=
  if url = "" then (reg.deviceOwner id).getD defaultTenant else url

variable (r : Resolver) (reg : Registry) (f : Failures)

/-- The owner a call learns of, from a cached answer or from a lookup that goes through. -/
def ownerSeen (id : String) : Option String :=
  if id = "" then none
  else
    match liveEntry r.ttl f.now r.devices id with
    | some e => if e.tenant ≠ "" ∧ e.known = true then some e.tenant else none
    | none => if f.device then none else reg.deviceOwner id

/-- The tenant is known to exist, from a cached answer or from a lookup that goes through. -/
def tenantSeen (tenant : String) : Bool :=
  match liveEntry r.ttl f.now r.tenants tenant with
  | some e => e.known
  | none => !f.tenant && decide (tenant ∈ reg.tenantRows)

/-- Where a call leads that does not lead to the rightful tenant: to the owner it
sees when that is somebody else, and to the default tenant when it sees no owner
and cannot tell that the tenant of the URL exists. -/
def astray (url id : String) : Option String :=
  match ownerSeen r reg f id with
  | some owner => if owner = reg.rightful url id then none else some owner
  | none =>
    if authTenant url = defaultTenant ∨ tenantSeen r reg f url = false then
      if reg.rightful url id = defaultTenant then none else some defaultTenant
    else none

variable {r : Resolver} {reg : Registry} {f : Failures}

theorem known_failing (r : Resolver) (reg : Registry) (f : Failures) (id : String) :
    (known r f.now r.devices id ((reg.failing f).lookupDeviceTenant id)).1.2 =
        (ownerSeen r reg f id).isSome ∧
      ∀ owner, ownerSeen r reg f id = some owner →
        (known r f.now r.devices id ((reg.failing f).lookupDeviceTenant id)).1.1 = owner := by
  unfold known ownerSeen
  by_cases hid : id = ""
  · simp [hid]
  · simp only [if_neg hid]
    cases hlive : liveEntry r.ttl f.now r.devices id with
    | some e =>
      by_cases hknown : e.tenant ≠ "" ∧ e.known
      · simp [hknown]
      · obtain h | h := not_and_or.1 hknown
        · simp [not_not.1 h]
        · simp [h]
    | none =>
      cases hdevice : f.device with
      | true => simp [Registry.failing, hdevice]
      | false =>
        simp only [Registry.failing, hdevice, Registry.env, Registry.deviceOwner]
        cases hlookup : lookupTenant "" (reg.deviceRows id) with
        | found t => simp [lookupTenant_found_ne hlookup, hid]
        | notFound | ambiguous => simp
        | failed => exact absurd hlookup (lookupTenant_ne_failed _ _)

theorem tenantExists_failing (r : Resolver) (reg : Registry) (f : Failures) (id : String) :
    (tenantExists r (reg.failing f) id).1 = tenantSeen r reg f id := by
  simp only [tenantExists, tenantSeen, Registry.failing]
  cases liveEntry r.ttl f.now r.tenants id with
  | some e => rfl
  | none =>
    cases f.tenant with
    | true => rfl
    | false => by_cases hid : id ∈ reg.tenantRows <;> simp [Registry.env, hid]

section
variable (hdef : r.defTenant = defaultTenant)
include hdef

theorem reconcile_failing (owner url : String) (isKnown : Bool) :
    (reconcile r (reg.failing f) owner isKnown (authTenant url)).1 =
      if isKnown then owner
      else if authTenant url = defaultTenant ∨ tenantSeen r reg f url = false then defaultTenant
      else url := by
  cases isKnown with
  | true => rfl
  | false =>
    simp only [reconcile, Bool.false_eq_true, if_false, hdef]
    by_cases hurl : authTenant url = defaultTenant
    · simp [hurl]
    · have hne : url ≠ "" := by
        intro h
        exact hurl (by simp [authTenant, h])
      have hauth : authTenant url = url := by simp [authTenant, hne]
      rw [hauth] at hurl ⊢
      rw [if_neg (by simp [hne, hurl]), tenantExists_failing]
      cases tenantSeen r reg f url <;> simp [hurl]

theorem forDeviceTopic_failing (url id : String) :
    (forDeviceTopic r (reg.failing f) id (authTenant url)).1 =
      match ownerSeen r reg f id with
      | some owner => owner
      | none =>
        if authTenant url = defaultTenant ∨ tenantSeen r reg f url = false then defaultTenant
        else url := by
  obtain ⟨hknown, howner⟩ := known_failing r reg f id
  have heq : forDeviceTopic r (reg.failing f) id (authTenant url) = reconcile
      { r with devices := (known r f.now r.devices id ((reg.failing f).lookupDeviceTenant id)).2 }
      (reg.failing f) (known r f.now r.devices id ((reg.failing f).lookupDeviceTenant id)).1.1
      (known r f.now r.devices id ((reg.failing f).lookupDeviceTenant id)).1.2 (authTenant url) :=
    rfl
  have hreconcile (devices : Cache) :=
    @reconcile_failing { r with devices := devices } reg f hdef
  rw [heq, hreconcile, hknown]
  cases hseen : ownerSeen r reg f id with
  | some owner => exact howner owner hseen
  | none => rfl

theorem forDeviceTopic_astray (url id : String) :
    (forDeviceTopic r (reg.failing f) id (authTenant url)).1 =
      (astray r reg f url id).getD (reg.rightful url id) := by
  rw [forDeviceTopic_failing hdef, astray]
  cases ownerSeen r reg f id with
  | some owner => by_cases h : owner = reg.rightful url id <;> simp [h]
  | none =>
    by_cases hdefault : authTenant url = defaultTenant ∨ tenantSeen r reg f url = false
    · rw [if_pos hdefault, if_pos hdefault]
      by_cases h : reg.rightful url id = defaultTenant <;> simp [h]
    · rw [if_neg hdefault, if_neg hdefault]
      have hne : url ≠ "" := by
        intro h
        exact (not_or.1 hdefault).1 (by simp [authTenant, h])
      simp [Registry.rightful, hne]

end

theorem astray_ne {url id t : String} (h : astray r reg f url id = some t) :
    t ≠ reg.rightful url id := by
  revert h
  fun_cases astray r reg f url id with rintro ⟨⟩
  | case2 _ _ hne => exact hne
  | case4 _ _ hne => exact Ne.symm hne

end MeshsatHub.Tenancy
