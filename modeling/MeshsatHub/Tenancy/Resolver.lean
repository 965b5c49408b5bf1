import MeshsatHub.Topics.Shapes

/-!
# The tenant resolver

`internal/tenancy/resolver.go` and `platform.go`: a message belongs to the owner of record of the
identifier, or to the tenant the topic names when nobody owns it and that tenant exists, or to the
default tenant. `Env` holds the clock and what the store would answer during the call.
-/

namespace MeshsatHub.Tenancy
open Topics Function

/-- What the store answers to a lookup of the owner of an identifier. -/
inductive Lookup where
  | found (tenant : String)
  | notFound
  | ambiguous
  | failed

inductive TenantLookup where
  | found
  | notFound
  | failed

/-- The clock and the store's answers during one call. -/
structure Env where
  now : Nat
  lookupDeviceTenant : String → Lookup
  lookupBridgeTenant : String → Lookup
  getTenant : String → TenantLookup

structure Entry where
  tenant : String
  known : Bool
  expiry : Nat

abbrev Cache := String → Option Entry

structure Resolver where
  defTenant : String
  ttl : Nat
  devices : Cache
  bridges : Cache
  tenants : Cache

def newResolver (defTenant : String) (ttl : Nat) : Resolver where
  defTenant := if defTenant = "" then defaultTenant else defTenant
  ttl := ttl
  devices := fun _ => none
  bridges := fun _ => none
  tenants := fun _ => none

def liveEntry (ttl now : Nat) (cache : Cache) (key : String) : Option Entry :=
  if ttl = 0 then none else (cache key).filter fun e => now < e.expiry

def remember (ttl now : Nat) (cache : Cache) (key tenant : String) (known : Bool) : Cache :=
  if ttl = 0 then cache
  else update cache key (some ⟨tenant, known, now + ttl⟩)

variable (r : Resolver)

/-- The owner of an identifier, whether it is registered at all, and the
cache afterwards. -/
def known (now : Nat) (cache : Cache) (key : String) (answer : Lookup) : (String × Bool) × Cache :=
  if key = "" then ((r.defTenant, false), cache)
  else
    match liveEntry r.ttl now cache key with
    | some e => ((e.tenant, e.tenant ≠ "" && e.known), cache)
    | none =>
      match answer with
      | .found tenant =>
        -- an empty tenant without an error counts as a failed lookup
        if tenant = "" then ((r.defTenant, false), cache)
        else ((tenant, true), remember r.ttl now cache key tenant true)
      | .notFound | .ambiguous =>
        ((r.defTenant, false), remember r.ttl now cache key r.defTenant false)
      | .failed => ((r.defTenant, false), cache)

def tenantExists (env : Env) (id : String) : Bool × Resolver :=
  match liveEntry r.ttl env.now r.tenants id with
  | some e => (e.known, r)
  | none =>
    match env.getTenant id with
    | .found => (true, { r with tenants := remember r.ttl env.now r.tenants id "" true })
    | .notFound => (false, { r with tenants := remember r.ttl env.now r.tenants id "" false })
    | .failed => (false, r)

def reconcile (env : Env) (owner : String) (isKnown : Bool)
    (topicTenant : String) : String × Resolver :=
  if isKnown then (owner, r)
  else if topicTenant = "" ∨ topicTenant = r.defTenant then (r.defTenant, r)
  else
    let found := tenantExists r env topicTenant
    (if found.1 then topicTenant else r.defTenant, found.2)

def forDeviceTopic (env : Env) (imei topicTenant : String) : String × Resolver :=
  let (owner, devices) := known r env.now r.devices imei (env.lookupDeviceTenant imei)
  reconcile { r with devices := devices } env owner.1 owner.2 topicTenant

def forBridgeTopic (env : Env) (bridgeID topicTenant : String) : String × Resolver :=
  let (owner, bridges) := known r env.now r.bridges bridgeID (env.lookupBridgeTenant bridgeID)
  reconcile { r with bridges := bridges } env owner.1 owner.2 topicTenant

/-- Whether a topic carries traffic of the platform tenant. The owner is not
looked up for a topic that names a customer. -/
def isPlatformTopic (env : Env) (topic : String) : Bool × Resolver :=
  match parseDeviceTopic topic with
  | some t =>
    if t.tenant = defaultTenant then
      let (tenant, r') := forDeviceTopic r env t.device t.tenant
      (tenant = r.defTenant, r')
    else (false, r)
  | none =>
    match parseBridgeTopic topic with
    | some t =>
      if t.tenant = defaultTenant then
        let (tenant, r') := forBridgeTopic r env t.bridge t.tenant
        (tenant = r.defTenant, r')
      else (false, r)
    | none => (false, r)

/-- A topic that neither parser gives to the default tenant is not platform
traffic, whatever is cached or stored. -/
theorem isPlatformTopic_of_tenant_ne (r : Resolver) (env : Env) {topic : String}
    (hdevice : ∀ t, parseDeviceTopic topic = some t → t.tenant ≠ defaultTenant)
    (hbridge : ∀ t, parseBridgeTopic topic = some t → t.tenant ≠ defaultTenant) :
    (isPlatformTopic r env topic).1 = false := by
  unfold isPlatformTopic
  cases hd : parseDeviceTopic topic with
  | some t => simp only [if_neg (hdevice t hd)]
  | none =>
    cases hb : parseBridgeTopic topic with
    | some t => simp only [if_neg (hbridge t hb)]
    | none => rfl

/-- The rows that decide ownership, while nothing is registered, moved or
removed: the tenants of the rows with an identifier, and the tenants there are. -/
structure Registry where
  deviceRows : String → List String
  bridgeRows : String → List String
  tenantRows : List String

def lookupTenant (tenant : String) : List String → Lookup
  | [] => if tenant = "" then .notFound else .found tenant
  | t :: rows => if tenant ≠ "" ∧ t ≠ tenant then .ambiguous else lookupTenant t rows

variable (reg : Registry)

/-- A call during which the store answers from the registry. -/
def Registry.env (now : Nat) : Env where
  now := now
  lookupDeviceTenant := fun id => lookupTenant "" (reg.deviceRows id)
  lookupBridgeTenant := fun id => lookupTenant "" (reg.bridgeRows id)
  getTenant := fun id => if id ∈ reg.tenantRows then .found else .notFound

def Registry.deviceOwner (id : String) : Option String :=
  match lookupTenant "" (reg.deviceRows id) with
  | .found tenant => if id = "" then none else some tenant
  | _ => none

/-- Where the traffic of a tenant goes that nobody else owns. -/
def Registry.home (defTenant tenant : String) : String :=
  if tenant ≠ "" ∧ tenant ∈ reg.tenantRows then tenant else defTenant

def Registry.tenantOf (defTenant id topicTenant : String) : String :=
  (reg.deviceOwner id).getD (reg.home defTenant topicTenant)

/-- The cached answers are those the registry gives. -/
structure Resolver.Agrees (r : Resolver) (reg : Registry) : Prop where
  device : ∀ id e, r.devices id = some e → id ≠ "" →
    e.tenant = (reg.deviceOwner id).getD r.defTenant ∧ e.known = (reg.deviceOwner id).isSome
  tenant : ∀ id e, r.tenants id = some e → e.known = decide (id ∈ reg.tenantRows)

theorem newResolver_agrees (reg : Registry) (defTenant : String) (ttl : Nat) :
    (newResolver defTenant ttl).Agrees reg where
  device := fun _ _ h => absurd h (by simp [newResolver])
  tenant := fun _ _ h => absurd h (by simp [newResolver])

theorem lookupTenant_ne_failed (tenant : String) (rows : List String) :
    lookupTenant tenant rows ≠ .failed := by
  induction rows generalizing tenant with unfold lookupTenant
  | nil => split <;> simp
  | cons t rows ih =>
    split
    · simp
    · exact ih t

theorem lookupTenant_found_ne {tenant t : String} {rows : List String}
    (h : lookupTenant tenant rows = .found t) : t ≠ "" := by
  induction rows generalizing tenant with unfold lookupTenant at h
  | nil =>
    split at h
    · exact absurd h (by simp)
    · next hne =>
      cases h
      exact hne
  | cons u rows ih =>
    split at h
    · exact absurd h (by simp)
    · exact ih h

theorem Registry.deviceOwner_ne {reg : Registry} {id t : String}
    (h : reg.deviceOwner id = some t) : t ≠ "" := by
  unfold Registry.deviceOwner at h
  split at h
  · next hfound =>
    split at h
    · exact absurd h (by simp)
    · cases h
      exact lookupTenant_found_ne hfound
  · exact absurd h (by simp)

theorem liveEntry_some {ttl now : Nat} {cache : Cache} {key : String} {e : Entry}
    (h : liveEntry ttl now cache key = some e) : cache key = some e := by
  unfold liveEntry at h
  split at h
  · exact absurd h (by simp)
  · exact (Option.filter_eq_some_iff.1 h).1

theorem remember_some {ttl now : Nat} {cache : Cache} {key id tenant : String} {known : Bool}
    {e : Entry} (h : remember ttl now cache key tenant known id = some e) :
    cache id = some e ∨ (id = key ∧ e.tenant = tenant ∧ e.known = known) := by
  unfold remember at h
  split at h
  · exact Or.inl h
  · by_cases hid : id = key
    · subst hid
      rw [update_self] at h
      cases h
      exact Or.inr ⟨rfl, rfl, rfl⟩
    · rw [update_of_ne hid] at h
      exact Or.inl h

variable {r : Resolver} {reg : Registry}

section
variable (h : r.Agrees reg)
include h

theorem known_value (now : Nat) (id : String) :
    (known r now r.devices id (lookupTenant "" (reg.deviceRows id))).1 =
      ((reg.deviceOwner id).getD r.defTenant, (reg.deviceOwner id).isSome) := by
  by_cases hid : id = ""
  · have howner : reg.deviceOwner id = none := by
      unfold Registry.deviceOwner
      split <;> simp [hid]
    unfold known
    rw [if_pos hid, howner]
    rfl
  · unfold known
    rw [if_neg hid]
    cases hlive : liveEntry r.ttl now r.devices id with
    | some e =>
      obtain ⟨htenant, hknown⟩ := h.device id e (liveEntry_some hlive) hid
      cases howner : reg.deviceOwner id with
      | none => simp [htenant, hknown, howner]
      | some t =>
        have hne := Registry.deviceOwner_ne howner
        simp [htenant, hknown, howner, hne]
    | none =>
      unfold Registry.deviceOwner
      cases hlookup : lookupTenant "" (reg.deviceRows id) with
      | found t => simp [lookupTenant_found_ne hlookup, hid]
      | notFound | ambiguous => simp
      | failed => exact absurd hlookup (lookupTenant_ne_failed _ _)

omit h in
theorem known_cache (r : Resolver) (now : Nat) (cache : Cache) (key : String) (answer : Lookup) :
    (known r now cache key answer).2 = cache ∨
      (known r now cache key answer).2 = remember r.ttl now cache key
        (known r now cache key answer).1.1 (known r now cache key answer).1.2 := by
  unfold known
  split
  · exact Or.inl rfl
  · split
    · exact Or.inl rfl
    · split
      · split
        · exact Or.inl rfl
        · exact Or.inr rfl
      · exact Or.inr rfl
      · exact Or.inr rfl
      · exact Or.inl rfl

theorem known_agrees (now : Nat) (id : String) : Resolver.Agrees { r with
      devices := (known r now r.devices id (lookupTenant "" (reg.deviceRows id))).2 } reg := by
  refine ⟨?_, h.tenant⟩
  intro key e he hkey
  obtain heq | heq := known_cache r now r.devices id (lookupTenant "" (reg.deviceRows id))
  · exact h.device key e (heq ▸ he) hkey
  · rw [known_value h] at heq
    obtain hold | ⟨rfl, htenant, hknown⟩ := remember_some (heq ▸ he)
    · exact h.device key e hold hkey
    · exact ⟨htenant, hknown⟩

theorem tenantExists_value (now : Nat) (id : String) :
    (tenantExists r (reg.env now) id).1 = decide (id ∈ reg.tenantRows) := by
  unfold tenantExists
  split
  · next e hlive => exact h.tenant id e (liveEntry_some hlive)
  · by_cases hid : id ∈ reg.tenantRows <;> simp [Registry.env, hid]

theorem tenantExists_agrees (now : Nat) (id : String) :
    (tenantExists r (reg.env now) id).2.Agrees reg := by
  have hremember (known : Bool) (hknown : known = decide (id ∈ reg.tenantRows)) :
      Resolver.Agrees { r with tenants := remember r.ttl now r.tenants id "" known } reg := by
    refine ⟨h.device, ?_⟩
    intro key e he
    obtain hold | ⟨rfl, _, heq⟩ := remember_some he
    · exact h.tenant key e hold
    · rw [heq, hknown]
  unfold tenantExists
  split
  · exact h
  · by_cases hid : id ∈ reg.tenantRows
    · simp only [Registry.env, if_pos hid]
      exact hremember true (by simp [hid])
    · simp only [Registry.env, if_neg hid]
      exact hremember false (by simp [hid])

omit h in
@[simp] theorem tenantExists_defTenant (r : Resolver) (env : Env) (id : String) :
    (tenantExists r env id).2.defTenant = r.defTenant := by
  unfold tenantExists
  split
  · rfl
  · split <;> rfl

theorem reconcile_value (now : Nat) (owner : String) (isKnown : Bool) (topicTenant : String) :
    (reconcile r (reg.env now) owner isKnown topicTenant).1 =
      if isKnown then owner else reg.home r.defTenant topicTenant := by
  cases isKnown with
  | true => rfl
  | false =>
    simp only [reconcile, Bool.false_eq_true, if_false, Registry.home]
    by_cases hor : topicTenant = "" ∨ topicTenant = r.defTenant
    · obtain rfl | rfl := hor <;> simp
    · rw [if_neg hor, tenantExists_value h]
      simp [(not_or.1 hor).1]

theorem reconcile_agrees (now : Nat) (owner : String) (isKnown : Bool) (topicTenant : String) :
    (reconcile r (reg.env now) owner isKnown topicTenant).2.Agrees reg := by
  unfold reconcile
  split
  · exact h
  · split
    · exact h
    · exact tenantExists_agrees h now topicTenant

omit h in
@[simp] theorem reconcile_defTenant (r : Resolver) (env : Env) (owner : String) (isKnown : Bool)
    (topicTenant : String) :
    (reconcile r env owner isKnown topicTenant).2.defTenant = r.defTenant := by
  unfold reconcile
  split
  · rfl
  · split
    · rfl
    · exact tenantExists_defTenant r env topicTenant

/-- Caching is transparent: the tenant of a message is the one the registry
gives, whatever was looked up before and when. -/
theorem forDeviceTopic_value (now : Nat) (id topicTenant : String) :
    (forDeviceTopic r (reg.env now) id topicTenant).1 =
      reg.tenantOf r.defTenant id topicTenant := by
  have hvalue : (forDeviceTopic r (reg.env now) id topicTenant).1 =
      if (reg.deviceOwner id).isSome then (reg.deviceOwner id).getD r.defTenant
      else reg.home r.defTenant topicTenant := by
    have hreconcile := reconcile_value (known_agrees h now id) now
      (known r now r.devices id (lookupTenant "" (reg.deviceRows id))).1.1
      (known r now r.devices id (lookupTenant "" (reg.deviceRows id))).1.2 topicTenant
    rw [known_value h] at hreconcile
    exact (congrArg (fun a => (reconcile _ _ a.1 a.2 topicTenant).1)
      (known_value h now id)).trans hreconcile
  rw [hvalue, Registry.tenantOf]
  cases reg.deviceOwner id <;> simp

theorem forDeviceTopic_agrees (now : Nat) (id topicTenant : String) :
    (forDeviceTopic r (reg.env now) id topicTenant).2.Agrees reg :=
  reconcile_agrees (known_agrees h now id) now _ _ topicTenant

end

@[simp] theorem forDeviceTopic_defTenant (r : Resolver) (env : Env) (id topicTenant : String) :
    (forDeviceTopic r env id topicTenant).2.defTenant = r.defTenant := by
  simp [forDeviceTopic]

end MeshsatHub.Tenancy
