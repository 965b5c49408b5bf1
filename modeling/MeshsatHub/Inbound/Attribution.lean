import MeshsatHub.Inbound.Conduct

/-!
# The tenant of a satellite message under failing lookups

The satellite handlers look the tenant of a modem up anew for nearly every effect, and the resolver
answers a failed lookup with the default tenant, so one failure splits a message between two
tenants. The caches hold anything at the start.
-/

namespace MeshsatHub.Inbound
open Procedures Tenancy Topics List
variable (cfg : Config) (replica : Nat)

def Satellite.deliver (url : String) (s : Satellite) (choices : Nat → Choice) (g : Store) :
    Ended Store Choice Op Entry Answer :=
  (s.handle cfg.codecs url).run (respond cfg replica) choices g

/-- The operation does not go astray: what its lookup is led astray to takes no
effect, and a management frame is from a peer of the rightful tenant. -/
structure OnCourse (url imei : String) (v : Visit Store Choice Op) : Prop where
  effect : ∀ id auth effect tenant, v.op = .file id auth effect →
    astray (v.before.resolvers replica) cfg.registry v.choice.failures url id = some tenant →
      effect.takesPlace cfg v.before v.choice tenant id = false
  frame : ∀ bearer origin text peer, v.op = .handleInbound bearer origin text →
    cfg.managed bearer origin text = some (some peer) → peer = cfg.registry.rightful url imei

variable {cfg replica}
variable {v : Visit Store Choice Op}

theorem OnCourse.of_quiet {url imei : String}
    (hfile : ∀ id auth effect, v.op ≠ .file id auth effect)
    (hframe : ∀ bearer origin text, v.op ≠ .handleInbound bearer origin text) :
    OnCourse cfg replica url imei v where
  effect := fun id auth effect _ hop => absurd hop (hfile id auth effect)
  frame := fun bearer origin text _ hop => absurd hop (hframe bearer origin text)

theorem respond_expected (cfg : Config) (replica : Nat) (g : Store) (c : Choice) (op : Op) :
    Expected op (respond cfg replica g c op).answer := by
  cases op with
  | claims device data mtu =>
    intro h
    by_contra hfragment
    have hfalse : claims (g.reassemblers replica) device data mtu = false :=
      claims_eq_false (.inr (by simpa using hfragment))
    exact Bool.false_ne_true (hfalse.symm.trans h)
  | _ => trivial

/-- An operation a satellite handler may ask for files nothing under anybody else
exactly when it stays on course. -/
theorem emits_rightful_iff {w : Terms} {phase : Phase} (hallows : w.Allows phase v.op) :
    (∀ e ∈ (respond cfg replica v.before v.choice v.op).emits, ∀ tenant, e.tenant = some tenant →
      tenant = cfg.registry.rightful w.url w.device) ↔ OnCourse cfg replica w.url w.device v := by
  obtain ⟨g, c, op⟩ := v
  cases op with
  | file id auth effect =>
    obtain ⟨rfl, rfl, -, -⟩ := hallows
    have hplace (tenant : String) :
        effect.takesPlace cfg (g.lookup cfg replica c w.device (authTenant w.url)).2 c tenant
          w.device = effect.takesPlace cfg g c tenant w.device :=
      Effect.takesPlace_congr (fun _ _ => rfl) tenant w.device
    simp only [respond, Store.mem_file, hplace, Store.lookup_tenant]
    constructor
    · intro h
      refine ⟨?_, fun _ _ _ _ hop => Op.noConfusion hop⟩
      rintro id auth effect' tenant ⟨⟩ hastray
      by_contra htakes
      have hsome := h _ ⟨by simpa [hastray] using htakes, rfl⟩ tenant
        (by simp [Entry.tenant, hastray])
      exact astray_ne hastray hsome
    · rintro h e ⟨htakes, rfl⟩ tenant ⟨⟩
      cases hastray : astray (g.resolvers replica) cfg.registry c.failures w.url w.device with
      | none => rfl
      | some t =>
        have hnone := h.effect w.device (authTenant w.url) effect t rfl hastray
        rw [hastray, Option.getD_some, hnone] at htakes
        cases htakes
  | handleInbound bearer origin text =>
    constructor
    · intro h
      refine ⟨fun _ _ _ _ hop => Op.noConfusion hop, ?_⟩
      rintro bearer' origin' text' peer ⟨⟩ hpeer
      simp only [respond, hpeer] at h
      exact h _ (mem_singleton.2 rfl) peer rfl
    · intro h e he tenant htenant
      cases hmanaged : cfg.managed bearer origin text with
      | none => simp [respond, hmanaged] at he
      | some peer =>
        simp only [respond, hmanaged, mem_singleton] at he
        subst he
        exact h.frame bearer origin text tenant rfl (by rw [hmanaged]; exact congrArg some htenant)
  | fileAs _ _ _ | takeSMS _ _ | publishHub _ | newID =>
    exact absurd hallows (by cases phase <;> simp [Terms.Allows])
  | resolve _ _ | isNew _ | claims _ _ _ | addFragment _ _ | declaration _ _ =>
    exact ⟨fun _ => .of_quiet (by simp) (by simp), fun _ e he => absurd he (by simp [respond])⟩

theorem Satellite.visits_allowed {url : String} {s : Satellite} {choices : Nat → Choice} {g : Store}
    (hv : v ∈ (s.deliver cfg replica url choices g).visits) :
    ∃ phase, (s.terms cfg.codecs url).Allows phase v.op := by
  have hstep : ∀ phase (g : Store) c op, True → (s.terms cfg.codecs url).conduct.allows phase op →
      True ∧ (s.terms cfg.codecs url).conduct.may phase op (respond cfg replica g c op).answer :=
    fun _ g c op _ _ => ⟨trivial, respond_expected cfg replica g c op⟩
  exact (run_visits hstep (s.handle_follows cfg.codecs url) trivial v hv).2

/-- Everything a satellite delivery files is its rightful tenant's exactly when none
of its operations goes astray. -/
theorem satellite_filed_rightfully_iff (cfg : Config) (replica : Nat) (url : String)
    (s : Satellite) (choices : Nat → Choice) (g : Store) :
    (∀ e ∈ (s.deliver cfg replica url choices g).emits, ∀ tenant, e.tenant = some tenant →
        tenant = cfg.registry.rightful url s.imei) ↔
      ∀ v ∈ (s.deliver cfg replica url choices g).visits,
        OnCourse cfg replica url s.imei v := by
  constructor
  · intro h v hv
    obtain ⟨phase, hphase⟩ := Satellite.visits_allowed hv
    apply (emits_rightful_iff hphase).1
    exact fun e he => h e (mem_emits_iff.2 ⟨v, hv, he⟩)
  · intro h e he
    obtain ⟨v, hv, he⟩ := mem_emits_iff.1 he
    obtain ⟨phase, hphase⟩ := Satellite.visits_allowed hv
    exact (emits_rightful_iff hphase).2 (h v hv) e he

def plainCodecs : Codecs where
  sha256 := id
  rfc3339 := fun _ => ""
  decodeHex := fun text => some (text.toUTF8.data.toList)
  encodeBase64 := id
  decodeBase64 := some
  decryptMessage := fun _ _ => none
  decompress := fun _ => none
  looksLikeMSVQSC := fun _ => false
  decodeMSVQSC := fun _ => none
  looksLikeReticulum := fun _ => false
  readSMS := fun _ data => ⟨data, .none, false, data⟩
  sealedSMS := fun _ => false

/-- A Hub on which one tenant has registered one modem. -/
def oneModem : Config where
  codecs := plainCodecs
  registry := ⟨fun id => if id = "3001" then ["acme"] else [], fun _ => [], ["acme"]⟩
  bridgeOf := fun _ _ => none
  declared := fun _ _ => .undeclared
  managed := fun _ _ _ => none
  takes := fun _ _ => false
  dedupTTL := 3600

/-- Replicas that have just started. -/
def emptyStore : Store where
  resolvers := fun _ => newResolver defaultTenant 30
  reassemblers := fun _ _ _ => none
  seen := fun _ => none
  rows := fun _ => none
  platform := fun _ => rfl

def failsAt (time n : Nat) : Choice :=
  ⟨⟨100 * n, n = time, false⟩, false, false, ""⟩

def hello : RockblockForm := ⟨"3001", 7, "", 0, 0, 0, "hello", ""⟩

/-- The fourth of six effects is the row: it goes to the default tenant when its lookup fails
after the cached answer has expired, and everything else goes to the owner. -/
theorem message_split : oneModem.registry.rightful "" (Satellite.rockblock hello).imei = "acme" ∧
      ((Satellite.rockblock hello).deliver oneModem 0 "" (failsAt 7) emptyStore).emits.map
        Entry.tenant = [some "acme", some "acme", some "acme", some "default", some "acme",
          some "acme"] ∧
      ¬∀ e ∈ ((Satellite.rockblock hello).deliver oneModem 0 "" (failsAt 7) emptyStore).emits,
        ∀ tenant, e.tenant = some tenant →
          tenant = oneModem.registry.rightful "" (Satellite.rockblock hello).imei := by
  have hright : oneModem.registry.rightful "" (Satellite.rockblock hello).imei = "acme" := by
    decide +kernel
  have hemits : ((Satellite.rockblock hello).deliver oneModem 0 "" (failsAt 7) emptyStore).emits.map
      Entry.tenant = [some "acme", some "acme", some "acme", some "default", some "acme",
        some "acme"] := by decide +kernel
  refine ⟨hright, hemits, fun h => ?_⟩
  have hmem : some "default" ∈
      ((Satellite.rockblock hello).deliver oneModem 0 "" (failsAt 7) emptyStore).emits.map
        Entry.tenant := by
    rw [hemits]
    simp
  obtain ⟨e, he, heq⟩ := mem_map.1 hmem
  exact absurd ((h e he "default" heq).trans hright) (by decide)

end MeshsatHub.Inbound
