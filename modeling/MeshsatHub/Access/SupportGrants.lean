import Mathlib
import MeshsatHub.Access.Credentials
import MeshsatHub.Foundations.Runs

/-!
# Support access with the customer's consent

The grants, the cache of `internal/api/tenant_viewas.go` that answers the consent check on one
replica, and the requests served there. Any replica changes grants. A call of `Opened` reads the
clock, the cache, the store and writes the cache in four steps. No step looks at `past`.
-/

namespace MeshsatHub.Access
open Runs Strings List Function Bool Option

structure SupportGrant where
  id : String
  tenantID : String
  createdAt : Int
  expiresAt : Int
  usedAt : Option Int
  revokedAt : Option Int

def SupportGrant.active (g : SupportGrant) (t : Int) : Bool :=
  g.revokedAt.isNone && t < g.expiresAt

/-- An operator has presented the PIN. -/
def SupportGrant.opened (g : SupportGrant) : Bool := g.usedAt.isSome

variable (grants : List SupportGrant)

def createSupportGrant (g : SupportGrant) : List SupportGrant :=
  g :: grants.map fun old =>
    if old.tenantID = g.tenantID ∧ old.revokedAt = none then
      { old with revokedAt := some g.createdAt }
    else old

def getActiveSupportGrant (tenantID : String) (now : Int) : Option SupportGrant :=
  ((grants.filter fun g => g.tenantID = tenantID ∧ g.revokedAt = none ∧ now < g.expiresAt
    ).insertionSort fun g h => h.createdAt ≤ g.createdAt).head?

def markSupportGrantUsed (tenantID id : String) (time : Int) : List SupportGrant :=
  grants.map fun g =>
    if g.tenantID = tenantID ∧ g.id = id ∧ g.usedAt = none then { g with usedAt := some time }
    else g

def revokeSupportGrant (tenantID id : String) (time : Int) : List SupportGrant :=
  grants.map fun g =>
    if g.tenantID = tenantID ∧ g.id = id ∧ g.revokedAt = none then
      { g with revokedAt := some time }
    else g

structure CachedGrant where
  opened : Bool
  expires : Int

structure Config where
  enforce : Bool
  ttl : Int

/-- The lifetime of a cached answer, ten seconds unless one is given. -/
def Config.lifetime (cfg : Config) : Int := if cfg.ttl ≤ 0 then 10000000000 else cfg.ttl

theorem Config.lifetime_pos (cfg : Config) : 0 < cfg.lifetime := by
  rw [Config.lifetime]
  split
  · decide
  · omega

inductive Stage where
  | entered (tenantID : String)
  | readCache (tenantID : String) (now : Int)
  | readStore (tenantID : String) (now : Int)
  | writeCache (tenantID : String) (now : Int) (opened : Bool)
  | answered (opened : Bool)
  | done (result : Except Denial String) (time : Int)
  deriving DecidableEq

structure Request where
  user : User
  header : String
  arrived : Int
  stage : Stage

structure Hub where
  clock : Int
  grants : List SupportGrant
  cache : String → Option CachedGrant
  requests : List Request
  past : List (Int × List SupportGrant)

inductive Event where
  | tick (d : Nat)
  | create (id tenantID : String) (createdAt expiresAt : Int)
  | pinPresented (tenantID id : String)
  | revoke (tenantID id : String)
  | forget (tenantID : String)
  | request (u : User) (header : String)
  /-- The next operation of a request's consent check; `ok` tells whether a read
  of the store succeeds. -/
  | run (i : Nat) (ok : Bool)
  | finish (i : Nat) (status : String → TenantStatus)

/-- What a read of the store at the present moment answers to `Opened`. -/
def Hub.grantOpened (h : Hub) (tenantID : String) (now : Int) : Bool :=
  match getActiveSupportGrant h.grants tenantID h.clock with
  | some g => g.active now && g.opened
  | none => false

def Request.goTo (r : Request) (stage : Stage) : Request := { r with stage := stage }

/-- `Opened`, one operation at a time. -/
def Hub.lookUp (cfg : Config) (h : Hub) (r : Request) (ok : Bool) :
    Option ((String → Option CachedGrant) × Request) :=
  match r.stage with
  | .entered t => some (h.cache, r.goTo (.readCache t h.clock))
  | .readCache t now =>
    match h.cache t with
    | some e =>
      if now < e.expires then some (h.cache, r.goTo (.answered e.opened))
      else some (h.cache, r.goTo (.readStore t now))
    | none => some (h.cache, r.goTo (.readStore t now))
  | .readStore t now =>
    if ok then some (h.cache, r.goTo (.writeCache t now (h.grantOpened t now)))
    else some (h.cache, r.goTo (.answered false))
  | .writeCache t now opened =>
    some (update h.cache t (some ⟨opened, now + cfg.lifetime⟩), r.goTo (.answered opened))
  | .answered _ => none
  | .done _ _ => none

def newRequest (u : User) (header : String) (arrived : Int) : Request where
  user := u
  header := header
  arrived := arrived
  stage :=
    match consentAsked u header with
    | some t => .entered t
    | none => .answered false

/-- The context holds the user's own tenant when the tenant is picked. -/
def Request.finish (cfg : Config) (r : Request) (status : String → TenantStatus) (time : Int) :
    Option Request :=
  match r.stage with
  | .answered opened =>
    some (r.goTo (.done
      (tenantMiddleware cfg.enforce r.user r.user.tenantID r.header opened status) time))
  | _ => none

def act (cfg : Config) (h : Hub) : Event → Option Hub
  | .tick d => some { h with clock := h.clock + d }
  | .create id tenantID createdAt expiresAt =>
    some { h with
      grants := createSupportGrant h.grants ⟨id, tenantID, createdAt, expiresAt, none, none⟩ }
  | .pinPresented tenantID id =>
    some { h with grants := markSupportGrantUsed h.grants tenantID id h.clock }
  | .revoke tenantID id => some { h with grants := revokeSupportGrant h.grants tenantID id h.clock }
  | .forget tenantID => some { h with cache := update h.cache tenantID none }
  | .request u header => some { h with requests := h.requests ++ [newRequest u header h.clock] }
  | .run i ok =>
    match h.requests[i]? with
    | none => none
    | some r =>
      (h.lookUp cfg r ok).map fun (cache, r') =>
        { h with cache := cache, requests := h.requests.set i r' }
  | .finish i status =>
    match h.requests[i]? with
    | none => none
    | some r =>
      (r.finish cfg status h.clock).map fun r' => { h with requests := h.requests.set i r' }

/-- Every moment is kept in `past`. -/
def step (cfg : Config) (h : Hub) (e : Event) : Option Hub :=
  act cfg { h with past := (h.clock, h.grants) :: h.past } e

def initial : Hub where
  clock := 0
  grants := []
  cache := fun _ => none
  requests := []
  past := []

def OpenAt (moment : Int × List SupportGrant) (tenantID : String) : Prop :=
  ∃ g ∈ moment.2, g.tenantID = tenantID ∧ g.opened = true ∧ g.active moment.1 = true

/-- The tenant had such a grant at a moment not after `time` and within the
cache's lifetime before the request came in. -/
def Consented (cfg : Config) (h : Hub) (r : Request) (tenantID : String) (time : Int) : Prop :=
  ∃ moment ∈ h.past, OpenAt moment tenantID ∧ r.arrived < moment.1 + cfg.lifetime ∧
    moment.1 ≤ time

variable {cfg : Config} {h h' : Hub} {r : Request} {t : String} {time : Int}

structure Hub.Later (h h' : Hub) : Prop where
  clock : h.clock ≤ h'.clock
  past : h.past ⊆ h'.past

def Request.Inv (cfg : Config) (h : Hub) (r : Request) : Prop :=
  match r.stage with
  | .entered t => consentAsked r.user r.header = some t ∧ r.arrived ≤ h.clock
  | .readCache t now => consentAsked r.user r.header = some t ∧ r.arrived ≤ now ∧ now ≤ h.clock
  | .readStore t now => consentAsked r.user r.header = some t ∧ r.arrived ≤ now ∧ now ≤ h.clock
  | .writeCache t now opened =>
    consentAsked r.user r.header = some t ∧ r.arrived ≤ now ∧
      (opened = true → ∃ moment ∈ h.past, OpenAt moment t ∧ now ≤ moment.1)
  | .answered opened =>
    opened = true → ∃ t, consentAsked r.user r.header = some t ∧
      ∃ moment ∈ h.past, OpenAt moment t ∧ r.arrived < moment.1 + cfg.lifetime
  | .done result time =>
    ∀ t, result = .ok t → t ≠ r.user.tenantID → t ≠ "default" →
      opensOther r.user r.header = true ∧ (r.user.session = true → Consented cfg h r t time)

structure Hub.Inv (cfg : Config) (h : Hub) : Prop where
  past : ∀ moment ∈ h.past, moment.1 ≤ h.clock
  cache : ∀ t e, h.cache t = some e → e.opened = true →
    ∃ moment ∈ h.past, OpenAt moment t ∧ e.expires ≤ moment.1 + cfg.lifetime
  requests : ∀ r ∈ h.requests, r.Inv cfg h

theorem Consented.later (hc : Consented cfg h r t time)
    (hl : h.Later h') : Consented cfg h' r t time := by
  obtain ⟨moment, hmem, hrest⟩ := hc
  exact ⟨moment, hl.past hmem, hrest⟩

theorem Request.Inv.later (hr : r.Inv cfg h) (hl : h.Later h') : r.Inv cfg h' := by
  obtain ⟨user, header, arrived, stage⟩ := r
  cases stage with
  | entered t => exact ⟨hr.1, hr.2.trans hl.clock⟩
  | readCache t now | readStore t now => exact ⟨hr.1, hr.2.1, hr.2.2.trans hl.clock⟩
  | writeCache t now opened =>
    refine ⟨hr.1, hr.2.1, fun ho => ?_⟩
    obtain ⟨moment, hmem, hrest⟩ := hr.2.2 ho
    exact ⟨moment, hl.past hmem, hrest⟩
  | answered opened =>
    intro ho
    obtain ⟨t, hasked, moment, hmem, hrest⟩ := hr ho
    exact ⟨t, hasked, moment, hl.past hmem, hrest⟩
  | done result time =>
    intro t ht hown hdefault
    obtain ⟨hother, hconsent⟩ := hr t ht hown hdefault
    exact ⟨hother, fun hsession => (hconsent hsession).later hl⟩

theorem openAt_of_grantOpened {now : Int} (ho : h.grantOpened t now) :
    OpenAt (h.clock, h.grants) t := by
  rw [Hub.grantOpened] at ho
  split at ho
  · rename_i g hg
    have hmem := (mem_insertionSort _).1 (mem_of_mem_head? hg)
    simp only [mem_filter, decide_eq_true_eq] at hmem
    obtain ⟨hgrant, htenant, hrevoked, hexpires⟩ := hmem
    refine ⟨g, hgrant, htenant, (and_eq_true_iff.1 ho).2, ?_⟩
    rw [SupportGrant.active, hrevoked]
    simpa using hexpires
  · cases ho

variable {cache : String → Option CachedGrant} {r' : Request}

section
variable (hinv : h.Inv cfg)
include hinv

/-- An operation of `Opened` keeps what the cache and the request rely on. -/
theorem Hub.Inv.lookUp (hnow : (h.clock, h.grants) ∈ h.past) (hr : r.Inv cfg h)
    {ok : Bool} (hstep : h.lookUp cfg r ok = some (cache, r')) :
    (∀ t e, cache t = some e → e.opened →
      ∃ moment ∈ h.past, OpenAt moment t ∧ e.expires ≤ moment.1 + cfg.lifetime) ∧
      r'.Inv cfg h := by
  obtain ⟨user, header, arrived, stage⟩ := r
  revert hstep
  fun_cases h.lookUp cfg ⟨user, header, arrived, stage⟩ ok with
  | case1 t hs =>
    cases hs
    rintro ⟨⟩
    exact ⟨hinv.cache, hr.1, hr.2, le_refl _⟩
  | case2 t now hs e he hlive =>
    cases hs
    rintro ⟨⟩
    refine ⟨hinv.cache, fun ho => ?_⟩
    obtain ⟨moment, hmem, hopen, hexpires⟩ := hinv.cache t e he ho
    refine ⟨t, hr.1, moment, hmem, hopen, ?_⟩
    have harrived : arrived ≤ now := hr.2.1
    show arrived < moment.1 + cfg.lifetime
    omega
  | case3 t now hs | case4 t now hs =>
    cases hs
    rintro ⟨⟩
    exact ⟨hinv.cache, hr⟩
  | case5 t now hs =>
    cases hs
    rintro ⟨⟩
    refine ⟨hinv.cache, hr.1, hr.2.1, fun ho => ?_⟩
    exact ⟨_, hnow, openAt_of_grantOpened ho, hr.2.2⟩
  | case6 =>
    rintro ⟨⟩
    exact ⟨hinv.cache, fun ho => by cases ho⟩
  | case7 t now opened hs =>
    cases hs
    rintro ⟨⟩
    constructor
    · intro t' e he ho
      by_cases ht : t' = t
      · subst ht
        rw [update_self] at he
        cases he
        obtain ⟨moment, hmem, hopen, hle⟩ := hr.2.2 ho
        exact ⟨moment, hmem, hopen, by simpa using hle⟩
      · rw [update_of_ne ht] at he
        exact hinv.cache t' e he ho
    · intro ho
      obtain ⟨moment, hmem, hopen, hle⟩ := hr.2.2 ho
      refine ⟨t, hr.1, moment, hmem, hopen, ?_⟩
      have harrived : arrived ≤ now := hr.2.1
      have hpos := cfg.lifetime_pos
      show arrived < moment.1 + cfg.lifetime
      omega
  | case8 | case9 => rintro ⟨⟩

/-- A request is served elsewhere only by a platform administrator, and, where
the person is signed in, only with consent. -/
theorem Hub.Inv.finish (hr : r.Inv cfg h) {status : String → TenantStatus}
    (hstep : r.finish cfg status h.clock = some r') : r'.Inv cfg h := by
  obtain ⟨user, header, arrived, stage⟩ := r
  cases stage with cases hstep
  | answered opened =>
    intro t ht hown hdefault
    obtain ⟨hother, _, hsession⟩ := tenantMiddleware_foreign ht hown hdefault
    refine ⟨hother, fun hs => ?_⟩
    obtain ⟨hasked, ho⟩ := hsession hs
    obtain ⟨t', hasked', moment, hmem, hopen, hlt⟩ := hr ho
    have htt : t' = t := some.inj (hasked'.symm.trans hasked)
    exact ⟨moment, hmem, htt ▸ hopen, hlt, hinv.past moment hmem⟩

theorem Hub.Inv.setRequest {i : Nat} (hr' : r'.Inv cfg h)
    (hcache : ∀ t e, cache t = some e → e.opened → ∃ moment ∈ h.past, OpenAt moment t ∧
      e.expires ≤ moment.1 + cfg.lifetime) :
    Hub.Inv cfg { h with cache := cache, requests := h.requests.set i r' } := by
  have hlater : h.Later { h with cache := cache, requests := h.requests.set i r' } :=
    ⟨le_refl _, fun _ hm => hm⟩
  exact ⟨hinv.past, hcache,
    all_mem_set (fun q hq => (hinv.requests q hq).later hlater) (hr'.later hlater)⟩

omit hinv in
theorem newRequest_inv (u : User) (header : String) : (newRequest u header h.clock).Inv cfg h := by
  cases hasked : consentAsked u header with simp only [newRequest, hasked, Request.Inv]
  | none =>
    intro ho
    cases ho
  | some t => exact ⟨trivial, le_refl _⟩

theorem act_inv (hnow : (h.clock, h.grants) ∈ h.past) (e : Event)
    (hstep : act cfg h e = some h') : h'.Inv cfg := by
  have hlater {g : Hub} (hg : h.Later g) : ∀ q ∈ h.requests, q.Inv cfg g :=
    fun q hq => (hinv.requests q hq).later hg
  revert hstep
  fun_cases act cfg h e with
  | case1 d =>
    rintro ⟨⟩
    have hclock : h.clock ≤ h.clock + d := by omega
    exact ⟨fun m hm => (hinv.past m hm).trans hclock, hinv.cache, hlater ⟨hclock, fun _ hm => hm⟩⟩
  | case2 | case3 | case4 =>
    -- a grant is made, presented or revoked, which only the next moment records
    rintro ⟨⟩
    exact ⟨hinv.past, hinv.cache, hlater ⟨le_refl _, fun _ hm => hm⟩⟩
  | case5 tenantID =>
    rintro ⟨⟩
    refine ⟨hinv.past, fun t e he ho => ?_, hlater ⟨le_refl _, fun _ hm => hm⟩⟩
    by_cases ht : t = tenantID
    · subst ht
      simp only [update_self] at he
      cases he
    · simp only [update_of_ne ht] at he
      exact hinv.cache t e he ho
  | case6 u header =>
    rintro ⟨⟩
    exact ⟨hinv.past, hinv.cache, all_mem_snoc (hlater ⟨le_refl _, fun _ hm => hm⟩)
      ((newRequest_inv u header).later ⟨le_refl _, fun _ hm => hm⟩)⟩
  | case8 i ok r hi =>
    intro hstep
    obtain ⟨⟨cache, r'⟩, hlook, rfl⟩ := map_eq_some_iff.1 hstep
    have hr := hinv.requests r (mem_of_getElem? hi)
    obtain ⟨hcache, hr'⟩ := hinv.lookUp hnow hr hlook
    exact hinv.setRequest hr' hcache
  | case10 i status r hi =>
    intro hstep
    obtain ⟨r', hfinish, rfl⟩ := map_eq_some_iff.1 hstep
    have hr := hinv.requests r (mem_of_getElem? hi)
    exact hinv.setRequest (hinv.finish hr hfinish) hinv.cache
  | _ => rintro ⟨⟩

theorem step_inv (e : Event) (hstep : step cfg h e = some h') : h'.Inv cfg := by
  have hlater : h.Later { h with past := (h.clock, h.grants) :: h.past } :=
    ⟨le_refl _, subset_cons_self _ _⟩
  have hkept : Hub.Inv cfg { h with past := (h.clock, h.grants) :: h.past } := by
    refine ⟨?_, ?_, fun q hq => (hinv.requests q hq).later hlater⟩
    · intro m hm
      obtain rfl | hm := mem_cons.1 hm
      · exact le_refl _
      · exact hinv.past m hm
    · intro t e he ho
      obtain ⟨m, hm, hrest⟩ := hinv.cache t e he ho
      exact ⟨m, mem_cons_of_mem _ hm, hrest⟩
  exact act_inv hkept mem_cons_self e hstep

end

theorem initial_inv (cfg : Config) : initial.Inv cfg := by
  refine ⟨?_, ?_, ?_⟩
  · intro m hm
    cases hm
  · intro t e he
    cases he
  · intro q hq
    cases hq

/-- Every request of the person with the header that is served in a tenant other
than the person's own and the default one is a platform administrator's, with the
tenant's consent. -/
def ServedWithConsent (cfg : Config) (u : User) (header : String) : Prop :=
  ∀ h, Reaches (step cfg) (fun _ _ => True) initial h → ∀ r ∈ h.requests,
    r.user = u → r.header = header → ∀ t time, r.stage = .done (.ok t) time →
      t ≠ u.tenantID → t ≠ "default" → u.platformAdmin = true ∧ Consented cfg h r t time

variable {u : User} {header : String}

theorem platformAdmin_of_opensOther (h : opensOther u header) : u.platformAdmin := by
  simp only [opensOther, and_eq_true] at h
  exact h.1.1.1

theorem served_elsewhere (hrun : Reaches (step cfg) (fun _ _ => True) initial h)
    (hr : r ∈ h.requests) (hdone : r.stage = .done (.ok t) time)
    (hown : t ≠ r.user.tenantID) (hdefault : t ≠ "default") :
    opensOther r.user r.header ∧ (r.user.session → Consented cfg h r t time) := by
  have hinv : h.Inv cfg := hrun.invariant (initial_inv cfg)
    fun _ e _ hinv _ hstep => step_inv hinv e hstep
  have hrinv := hinv.requests r hr
  rw [Request.Inv, hdone] at hrinv
  exact hrinv t rfl hown hdefault

theorem servedWithConsent_of (h : u.session ∨ opensOther u header = false) :
    ServedWithConsent cfg u header := by
  intro s hrun r hr hu hheader t time hdone hown hdefault
  subst hu hheader
  obtain ⟨hother, hconsent⟩ := served_elsewhere hrun hr hdone hown hdefault
  refine ⟨platformAdmin_of_opensOther hother, ?_⟩
  obtain hsession | hhome := h
  · exact hconsent hsession
  · rw [hhome] at hother
    cases hother

def servedOnce (u : User) (header : String) : Hub where
  clock := 0
  grants := []
  cache := fun _ => none
  requests := [⟨u, header, 0, .done (.ok (trimSpace header)) 0⟩]
  past := [(0, []), (0, [])]

theorem reaches_servedOnce (hsession : u.session = false) (hother : opensOther u header) :
    Reaches (step cfg) (fun _ _ => True) initial (servedOnce u header) := by
  simp only [opensOther, and_eq_true, decide_eq_true_eq] at hother
  have hasked : consentAsked u header = none := by
    simp [consentAsked, hsession]
  have hserved : tenantMiddleware cfg.enforce u u.tenantID header false (fun _ => .active) =
      .ok (trimSpace header) :=
    tenantMiddleware_sessionless hother.1.1.1 hsession hother.1.1.2 u.tenantID
  have hrequest : step cfg initial (.request u header) =
      some { initial with requests := [⟨u, header, 0, .answered false⟩], past := [(0, [])] } := by
    simp [step, act, newRequest, hasked, initial]
  apply Reaches.tail (.finish 0 fun _ => .active)
    (Reaches.tail (.request u header) Reaches.refl trivial hrequest) trivial
  simp [step, act, Request.finish, Request.goTo, hserved, initial, servedOnce]

theorem not_servedWithConsent (hsession : u.session = false)
    (hother : opensOther u header) : ¬ServedWithConsent cfg u header := by
  intro hall
  have hrun : Reaches (step cfg) (fun _ _ => True) initial (servedOnce u header) :=
    reaches_servedOnce hsession hother
  simp only [opensOther, and_eq_true, decide_eq_true_eq] at hother
  obtain ⟨_, moment, hmem, hopen, _⟩ := hall _ hrun _ mem_cons_self rfl rfl _ _ rfl
    hother.2 hother.1.2
  have hnone : moment = (0, []) := by
    simpa [servedOnce] using hmem
  obtain ⟨g, hg, _⟩ := hopen
  rw [hnone] at hg
  cases hg

/-- A person is served elsewhere only with consent, and the header of a person who
is not a platform administrator changes nothing, exactly when the person came
with a session token or the header opens no other tenant. -/
theorem served_with_consent_iff (cfg : Config) (c : Credentials) (provided header : String)
    (u : User) (hperson : Person c provided u) :
    (ServedWithConsent cfg u header ∧
      (u.platformAdmin = false → ∀ (opened : Bool) (status : String → TenantStatus)
        (contextTenant header' : String),
        tenantMiddleware cfg.enforce u contextTenant header opened status =
          tenantMiddleware cfg.enforce u contextTenant header' opened status)) ↔
      ((c.verifyAccessToken provided).isSome = true ∨ opensOther u header = false) := by
  rw [← hperson.session_eq]
  constructor
  · rintro ⟨hconsent, _⟩
    apply Classical.byContradiction
    intro hnot
    obtain ⟨hsession, hother⟩ := not_or.1 hnot
    exact not_servedWithConsent (by simpa using hsession) (by simpa using hother) hconsent
  · intro h
    exact ⟨servedWithConsent_of h, fun hadmin _ _ contextTenant header' =>
      tenantMiddleware_header hadmin contextTenant header'⟩

def operatorCredentials : Credentials where
  breakGlass _ := false
  verifyAccessToken t :=
    if t = "session" then some ⟨"u1", "", "Operator", "admin", "default", true⟩ else none
  providerSubject t := if t = "bearer" then .ok "subject" else .error .invalidToken
  hasResolver := true
  getOIDCIdentity _ := some ⟨"default", "u1", true⟩
  getUserByID _ _ := some ⟨"u1", "", "Operator", "admin", true⟩

def operatorUser (session : Bool) : User :=
  ⟨"u1", "", "Operator", ["admin"], "default", true, session⟩

def grantedVisit : List Event :=
  [.create "g1" "acme" 0 100, .pinPresented "acme" "g1", .tick 5,
    .request (operatorUser true) " acme ", .run 0 true, .run 0 true, .run 0 true, .run 0 true,
    .finish 0 fun _ => .active]

/-- With a session token the operator gets there, and only with consent. -/
theorem served_with_consent_session : Person operatorCredentials "session" (operatorUser true) ∧
      ∃ h r, Reaches (step ⟨true, 0⟩) (fun _ _ => True) initial h ∧ r ∈ h.requests ∧
        r.stage = .done (.ok "acme") 5 ∧ Consented ⟨true, 0⟩ h r "acme" 5 := by
  have hperson : Person operatorCredentials "session" (operatorUser true) := ⟨rfl, rfl⟩
  refine ⟨hperson, ?_⟩
  obtain ⟨h, hrun, r, hmem, huser, hheader, hstage⟩ :=
    @exists_reaches_of_decide _ _ (step ⟨true, 0⟩) initial
      (fun h => ∃ r ∈ h.requests, r.user = operatorUser true ∧ r.header = " acme " ∧
        r.stage = .done (.ok "acme") 5) _ grantedVisit (by decide +kernel)
  have hconsent := ((served_with_consent_iff ⟨true, 0⟩ operatorCredentials "session" " acme "
    (operatorUser true) hperson).2 (Or.inl rfl)).1
  exact ⟨h, r, hrun, hmem, hstage,
    (hconsent h hrun r hmem huser hheader "acme" 5 hstage (by decide) (by decide)).2⟩

/-- With a bearer of the identity provider the same person opens a customer's
workspace although nobody ever granted access. -/
theorem provider_bearer_needs_no_consent :
    Person operatorCredentials "bearer" (operatorUser false) ∧
      ¬ServedWithConsent ⟨true, 0⟩ (operatorUser false) "acme" :=
  ⟨⟨rfl, rfl⟩, not_servedWithConsent rfl (by decide +kernel)⟩

end MeshsatHub.Access
