import MeshsatHub.Foundations.TwoRuns
import MeshsatHub.Inbound.Attribution

/-!
# Deliveries at different tenants' URLs

Histories of deliveries at the tenants' own URLs while no lookup fails. The tenant is recomputed
from the device id, and the duplicate filter, the reassemblers and the message ids are shared by all
tenants. Deliveries are handled one after the other. The footprint of a delivery is what it may mark
or write.
-/

namespace MeshsatHub.Inbound
open Egress Procedures Tenancy Topics TwoRuns List Function Option

section Deliveries

/-- What a provider sends. -/
inductive Form where
  | satellite (s : Satellite)
  | sms (f : SMSForm)

/-- A delivery at a tenant's URL, with the id drawn for an SMS that brings none. -/
structure Posting where
  url : String
  replica : Nat
  form : Form
  clock : Nat → Nat
  publishFails : Nat → Bool
  storeFails : Nat → Bool
  xid : String

def Posting.choices (d : Posting) (n : Nat) : Choice :=
  ⟨⟨d.clock n, false, false⟩, d.publishFails n, d.storeFails n, d.xid⟩

/-- What a delivery may mark and write: the device it names, the key of the duplicate filter,
the message id, and whether its payload can be taken for a fragment. -/
structure Footprint where
  device : String
  key : Option String
  messageID : String
  fragment : Bool

def SMSForm.binary (k : Codecs) (f : SMSForm) : Option Bytes :=
  (k.decodeBase64 f.body).filter fun raw => 0 < raw.length

variable (cfg : Config)

def Posting.footprint (d : Posting) : Footprint :=
  match d.form with
  | .satellite s =>
    let w := s.terms cfg.codecs d.url
    ⟨w.device, some w.key, w.messageID, isFragment w.data⟩
  | .sms f =>
    ⟨f.sender, (f.binary cfg.codecs).map (f.dedupKey cfg.codecs),
      "sms-in-" ++ (if f.messageSID = "" then d.xid else f.messageSID), false⟩

def Posting.handle (d : Posting) : Handler Answer :=
  match d.form with
  | .satellite s => s.handle cfg.codecs d.url
  | .sms f => f.serveHTTP cfg.codecs d.url

def Posting.accepted (d : Posting) : Bool :=
  match d.form with
  | .satellite s => cfg.registry.tenantOf defaultTenant s.imei d.url = d.url
  | .sms _ => true

/-- The answer of the store to the `n`-th operation of a delivery. -/
def Posting.respond (d : Posting) (g : Store) (n : Nat) (op : Op) : Reply Store Entry op.Answer :=
  Inbound.respond cfg d.replica g (d.choices n) op

def Posting.run (d : Posting) (g : Store) : Ended Store Nat Op Entry Answer :=
  (d.handle cfg).run (d.respond cfg) id g

/-- What became of a delivery. -/
structure Served where
  posting : Posting
  emits : List Entry
  answer : Answer

/-- The store, and the deliveries so far. -/
structure Desk where
  store : Store
  served : List Served

def Desk.serve (s : Desk) (d : Posting) : Desk :=
  let ended := d.run cfg s.store
  ⟨ended.state, s.served ++ [⟨d, ended.emits, ended.value⟩]⟩

def serveAll (g : Store) (history : List Posting) : Desk := history.foldl (Desk.serve cfg) ⟨g, []⟩

def Desk.of (s : Desk) (tenant : String) : List Served :=
  s.served.filter fun o => o.posting.url = tenant

end Deliveries

section Conduct
variable (cfg : Config)

/-- The operations of a delivery. -/
def Posting.Allows (d : Posting) : Op → Prop
  | .resolve id _ => id = (d.footprint cfg).device
  | .file id auth effect => id = (d.footprint cfg).device ∧ auth = authTenant d.url ∧
      ∀ m, effect = .insert m → m.id = (d.footprint cfg).messageID
  | .fileAs tenant _ effect =>
    tenant = cfg.registry.tenantOf defaultTenant (d.footprint cfg).device (authTenant d.url) ∧
      ∀ m, effect = .insert m → m.id = (d.footprint cfg).messageID
  | .isNew key => (d.footprint cfg).key = some key
  | .claims device data mtu => device = (d.footprint cfg).device ∧
      (mtu = 0 ∨ isFragment data = false ∨ (d.footprint cfg).fragment = true)
  | .addFragment device _ => device = (d.footprint cfg).device ∧ (d.footprint cfg).fragment = true
  | .takeSMS tenant _ => tenant = authTenant d.url
  | _ => True

/-- The answers of a store whose caches agree with the registry. -/
def Posting.Expects (d : Posting) : (op : Op) → op.Answer → Prop
  | .resolve id auth, answer => answer = cfg.registry.tenantOf defaultTenant id auth
  | .claims _ data mtu, answer => answer = true → mtu ≠ 0 ∧ isFragment data = true
  | .newID, answer => answer = d.xid
  | _, _ => True

def Posting.conduct (d : Posting) : Discipline Op Op.Answer Unit where
  allows := fun _ => d.Allows cfg
  may := fun _ => d.Expects cfg
  advance := fun _ _ _ => ()

variable {cfg} {d : Posting}

theorem Posting.satellite_follows {s : Satellite} (hform : d.form = .satellite s) :
    (d.handle cfg).Follows (d.conduct cfg) (fun _ _ => True) () := by
  have hfollows := s.handle_follows cfg.codecs d.url
  have hfootprint : d.footprint cfg = ⟨(s.terms cfg.codecs d.url).device,
      some (s.terms cfg.codecs d.url).key, (s.terms cfg.codecs d.url).messageID,
      isFragment (s.terms cfg.codecs d.url).data⟩ := by
    simp only [Posting.footprint, hform]
  have hhandle : d.handle cfg = s.handle cfg.codecs d.url := by
    simp only [Posting.handle, hform]
  rw [hhandle]
  refine hfollows.mono (fun _ => ()) ?_ ?_ (fun _ _ _ _ _ => rfl) (fun _ _ _ => trivial)
  · intro phase op hallows
    simp only [Posting.conduct]
    cases op with
    | resolve id auth =>
      simp only [Posting.Allows, hfootprint]
      cases phase <;> exact hallows
    | file id auth effect =>
      simp only [Posting.Allows, hfootprint]
      obtain ⟨hid, hauth, hcarries, -⟩ := hallows
      refine ⟨hid, hauth, ?_⟩
      rintro m rfl
      exact hcarries
    | isNew key =>
      simp only [Posting.Allows, hfootprint]
      cases phase with
      | start => exact congrArg some hallows.symm
      | fresh | repeated | filed => exact hallows.elim
    | claims device data mtu =>
      simp only [Posting.Allows, hfootprint]
      cases phase with
      | fresh =>
        obtain ⟨hdevice, rfl⟩ := hallows
        refine ⟨hdevice, .inr ?_⟩
        cases isFragment (s.terms cfg.codecs d.url).data <;> simp
      | start | repeated | filed => exact hallows.elim
    | addFragment device data =>
      simp only [Posting.Allows, hfootprint]
      cases phase with
      | fresh =>
        obtain ⟨hdevice, rfl, hfragment⟩ := hallows
        exact ⟨hdevice, hfragment⟩
      | start | repeated | filed => exact hallows.elim
    | fileAs _ _ _ | takeSMS _ _ =>
      exact absurd hallows (by cases phase <;> simp [Terms.conduct, Terms.Allows])
    | handleInbound _ _ _ | declaration _ _ | publishHub _ | newID => trivial
  · intro phase op answer _ hexpects
    cases op with
    | claims device data mtu => exact fun h => (hexpects h).2
    | _ => trivial

variable {f : SMSForm}

section
variable (hform : d.form = .sms f) {effect : Effect}
include hform

theorem Posting.footprint_sms : d.footprint cfg =
    ⟨f.sender, (f.binary cfg.codecs).map (f.dedupKey cfg.codecs),
      "sms-in-" ++ (if f.messageSID = "" then d.xid else f.messageSID), false⟩ := by
  simp only [Posting.footprint, hform]

theorem Posting.allows_file (heffect : ∀ m, effect = .insert m → m.id = (d.footprint cfg).messageID)
    : d.Allows cfg (.file f.sender (authTenant d.url) effect) :=
  ⟨by rw [footprint_sms hform], rfl, heffect⟩

theorem smsMessageID_follows : (smsMessageID f.messageSID).Follows (d.conduct cfg)
      (fun id _ => id = (d.footprint cfg).messageID) () := by
  rw [Posting.footprint_sms hform]
  refine follows_ite (fun h => ?_) fun h => ?_
  · refine follows_perform_bind trivial fun xid hxid => ?_
    have hxid : xid = d.xid := hxid
    simp only [h, if_true, hxid]
    rfl
  · simp only [h, if_false]
    rfl

namespace SMSForm

theorem processData_follows (data : Bytes) :
    (f.processData cfg.codecs (authTenant d.url) data).Follows (d.conduct cfg)
      (fun _ _ => True) () := by
  refine (smsMessageID_follows hform).bind fun id _ hid => ?_
  refine follows_perform_bind rfl fun lane _ => ?_
  refine follows_perform_bind (Posting.allows_file hform nofun) fun _ _ => ?_
  refine follows_perform_bind trivial fun _ _ => ?_
  refine follows_perform_bind (Posting.allows_file hform ?_) fun _ _ => ?_
  · rintro m ⟨⟩
    exact hid
  refine follows_perform_bind (Posting.allows_file hform nofun) fun _ _ => ?_
  exact follows_perform_bind (Posting.allows_file hform nofun) fun _ _ => trivial

theorem reassemble_follows (raw : Bytes) :
    (reassemble f.sender raw 0).Follows (d.conduct cfg) (fun found _ => found = .ok none) () := by
  have hallows : d.Allows cfg (.claims f.sender raw 0) :=
    ⟨by rw [Posting.footprint_sms hform], .inl rfl⟩
  refine follows_perform_bind hallows fun (claimed : Bool) hclaimed => ?_
  refine follows_ite (fun h => ?_) fun _ => rfl
  exact absurd rfl (hclaimed h).1

theorem receive_follows (raw : Bytes) :
    (f.receive cfg.codecs (authTenant d.url) raw).Follows (d.conduct cfg) (fun _ _ => True) () := by
  have huplink : (handleBridgeSatUplink (authTenant d.url) "sms" f.sender raw).Follows
      (d.conduct cfg) (fun _ _ => True) () := by
    refine follows_ite (fun _ => ?_) fun _ => trivial
    exact follows_perform_bind (Posting.allows_file hform nofun) fun _ _ => trivial
  refine huplink.bind fun uplink _ _ => ?_
  refine follows_ite (fun _ => trivial) fun _ => ?_
  refine follows_perform_bind (Posting.allows_file hform nofun) fun _ _ => ?_
  refine (f.reassemble_follows hform raw).bind fun found _ hfound => ?_
  rw [hfound]
  exact f.processData_follows hform raw

theorem processText_follows {id : String} (hid : id = (d.footprint cfg).messageID) :
    (f.processText (authTenant d.url) id).Follows (d.conduct cfg) (fun _ _ => True) () := by
  have hdevice : (d.footprint cfg).device = f.sender := by rw [Posting.footprint_sms hform]
  refine follows_perform_bind hdevice.symm fun tenant htenant => ?_
  have htenant : tenant = cfg.registry.tenantOf defaultTenant (d.footprint cfg).device
      (authTenant d.url) := by
    rw [hdevice]
    exact htenant
  refine follows_perform_bind rfl fun lane _ => ?_
  refine follows_perform_bind ⟨htenant, nofun⟩ fun _ _ => ?_
  refine follows_perform_bind trivial fun _ _ => ?_
  refine follows_perform_bind ⟨htenant, ?_⟩ fun _ _ => ?_
  · rintro m ⟨⟩
    exact hid
  exact follows_perform_bind (Posting.allows_file hform nofun) fun _ _ => trivial

theorem serveHTTP_follows :
    (f.serveHTTP cfg.codecs d.url).Follows (d.conduct cfg) (fun _ _ => True) () := by
  refine follows_ite (fun _ => trivial) fun _ => ?_
  cases hbinary : (cfg.codecs.decodeBase64 f.body).filter fun raw => 0 < raw.length with
  | some raw =>
    have hkey : d.Allows cfg (.isNew (f.dedupKey cfg.codecs raw)) := by
      simp only [Posting.Allows, Posting.footprint_sms hform, binary, hbinary, map_some]
    refine follows_perform_bind hkey fun (isNew : Bool) _ => ?_
    exact follows_ite (fun _ => f.receive_follows hform raw) fun _ => trivial
  | none =>
    refine (smsMessageID_follows hform).bind fun id _ hid => ?_
    refine follows_perform_bind trivial fun (managed : Bool) _ => ?_
    exact follows_ite (fun _ => trivial) fun _ => f.processText_follows hform hid

end SMSForm

end

theorem Posting.handle_follows (d : Posting) :
    (d.handle cfg).Follows (d.conduct cfg) (fun _ _ => True) () := by
  cases hform : d.form with
  | satellite s => exact d.satellite_follows hform
  | sms f =>
    have hhandle : d.handle cfg = f.serveHTTP cfg.codecs d.url := by
      simp only [Posting.handle, hform]
    rw [hhandle]
    exact f.serveHTTP_follows hform

end Conduct

section
variable {cfg : Config} {d : Posting} {g : Store} {p : Footprint} {n : Nat} {op : Op}

/-- What the caches hold is what the registry says. -/
def Store.Agrees (g : Store) (reg : Registry) : Prop := ∀ n, (g.resolvers n).Agrees reg

theorem Store.lookup_value (h : g.Agrees cfg.registry) (replica n : Nat) (id auth : String) :
    (g.lookup cfg replica (d.choices n) id auth).1 =
      cfg.registry.tenantOf defaultTenant id auth := by
  rw [← g.platform replica]
  exact forDeviceTopic_value (h replica) (d.clock n) id auth

theorem Store.lookup_agrees (h : g.Agrees cfg.registry) (replica n : Nat) (id auth : String) :
    (g.lookup cfg replica (d.choices n) id auth).2.Agrees cfg.registry := by
  intro m
  rw [Store.lookup_resolvers]
  by_cases hm : m = replica
  · subst hm
    rw [update_self]
    exact forDeviceTopic_agrees (h m) (d.clock n) id auth
  · rw [update_of_ne hm]
    exact h m

theorem Store.file_cases (g : Store) (c : Choice) (tenant device : String) (effect : Effect) :
    (g.file cfg c tenant device effect).1 = g ∨ ∃ m, effect = .insert m ∧
      (g.file cfg c tenant device effect).1 =
        { g with rows := Function.update g.rows m.id (some ⟨tenant, m⟩) } := by
  unfold Store.file
  split
  · cases effect with
    | insert m => exact .inr ⟨m, rfl, rfl⟩
    | _ => exact .inl rfl
  · exact .inl rfl

theorem respond_expects (h : g.Agrees cfg.registry) (n : Nat) (op : Op) :
    d.Expects cfg op (respond cfg d.replica g (d.choices n) op).answer := by
  cases op with
  | resolve id auth => exact Store.lookup_value h d.replica n id auth
  | claims device data mtu =>
    intro hclaims
    by_contra hnot
    have hfalse : claims (g.reassemblers d.replica) device data mtu = false := by
      apply claims_eq_false
      by_cases hmtu : mtu = 0
      · exact .inl hmtu
      · exact .inr (Bool.eq_false_iff.2 fun hfragment => hnot ⟨hmtu, hfragment⟩)
    exact Bool.false_ne_true (hfalse.symm.trans hclaims)
  | newID => rfl
  | _ => trivial

structure Footprint.Spares (p : Footprint) (g g' : Store) : Prop where
  seen : ∀ key, p.key ≠ some key → g'.seen key = g.seen key
  rows : ∀ id, id ≠ p.messageID → g'.rows id = g.rows id
  pending : ∀ device, (p.fragment = true → device ≠ p.device) →
    ∀ n, g'.reassemblers n device = g.reassemblers n device

theorem Footprint.Spares.refl (p : Footprint) (g : Store) : p.Spares g g :=
  ⟨fun _ _ => rfl, fun _ _ => rfl, fun _ _ _ => rfl⟩

theorem Footprint.Spares.trans {g₁ g₂ g₃ : Store} (h : p.Spares g₁ g₂)
    (h' : p.Spares g₂ g₃) : p.Spares g₁ g₃ where
  seen := fun key hkey => (h'.seen key hkey).trans (h.seen key hkey)
  rows := fun id hid => (h'.rows id hid).trans (h.rows id hid)
  pending := fun device hdevice n =>
    (h'.pending device hdevice n).trans (h.pending device hdevice n)

theorem Footprint.Spares.file (heffect : ∀ m, effect = .insert m → m.id = p.messageID) (c : Choice)
    (tenant device : String) : p.Spares g (g.file cfg c tenant device effect).1 := by
  obtain heq | ⟨m, rfl, heq⟩ := g.file_cases c tenant device effect
  · rw [heq]
    exact .refl p g
  · rw [heq]
    refine ⟨fun _ _ => rfl, fun id hid => ?_, fun _ _ _ => rfl⟩
    exact update_of_ne (heffect m rfl ▸ hid) _ _

theorem respond_spares (hallows : d.Allows cfg op) :
    (d.footprint cfg).Spares g (respond cfg d.replica g (d.choices n) op).state := by
  have hlookup (id auth : String) :
      (d.footprint cfg).Spares g (g.lookup cfg d.replica (d.choices n) id auth).2 :=
    ⟨fun _ _ => rfl, fun _ _ => rfl, fun _ _ _ => rfl⟩
  cases op with
  | resolve id auth | declaration id auth => exact hlookup id auth
  | file id auth effect => exact (hlookup id auth).trans (.file hallows.2.2 _ _ _)
  | fileAs tenant id effect => exact .file hallows.2 _ _ _
  | isNew key =>
    simp only [respond, Store.isNew]
    split
    · exact .refl _ g
    · refine ⟨fun key' hkey' => ?_, fun _ _ => rfl, fun _ _ _ => rfl⟩
      have hne : key' ≠ key := by
        rintro rfl
        exact hkey' hallows
      exact update_of_ne hne _ _
  | handleInbound bearer origin text =>
    simp only [respond]
    split <;> exact .refl _ g
  | addFragment device data =>
    obtain ⟨rfl, hfragment⟩ := hallows
    refine ⟨fun _ _ => rfl, fun _ _ => rfl, fun other hother m => ?_⟩
    simp only [respond]
    by_cases hm : m = d.replica
    · subst hm
      rw [update_self]
      exact addFragment_other (hother hfragment) data _
    · rw [update_of_ne hm]
  | claims _ _ _ | takeSMS _ _ | publishHub _ | newID => exact .refl _ g

theorem Store.Agrees.file {reg : Registry} (h : g.Agrees reg) (c : Choice) (tenant device : String)
    (effect : Effect) : (g.file cfg c tenant device effect).1.Agrees reg := by
  obtain heq | ⟨m, -, heq⟩ := g.file_cases c tenant device effect
  · rw [heq]
    exact h
  · rw [heq]
    exact h

theorem respond_agrees (h : g.Agrees cfg.registry) (n : Nat) (op : Op) :
    (respond cfg d.replica g (d.choices n) op).state.Agrees cfg.registry := by
  cases op with
  | resolve id auth | declaration id auth => exact Store.lookup_agrees h d.replica n id auth
  | file id auth effect => exact (Store.lookup_agrees h d.replica n id auth).file _ _ _ _
  | fileAs tenant id effect => exact h.file _ _ _ _
  | isNew key =>
    simp only [respond, Store.isNew]
    split <;> exact h
  | handleInbound bearer origin text =>
    simp only [respond]
    split <;> exact h
  | _ => exact h

theorem Posting.run_spares (h : g.Agrees cfg.registry) :
    (d.footprint cfg).Spares g (d.run cfg g).state ∧ (d.run cfg g).state.Agrees cfg.registry := by
  have hstep : ∀ phase (g' : Store) n op,
      (d.footprint cfg).Spares g g' ∧ g'.Agrees cfg.registry → (d.conduct cfg).allows phase op →
      ((d.footprint cfg).Spares g (d.respond cfg g' n op).state ∧
        (d.respond cfg g' n op).state.Agrees cfg.registry) ∧
      (d.conduct cfg).may phase op (d.respond cfg g' n op).answer :=
    fun _ _ n op hg hallows => ⟨⟨hg.1.trans (respond_spares hallows), respond_agrees hg.2 n op⟩,
      respond_expects hg.2 n op⟩
  exact run_state hstep d.handle_follows ⟨.refl _ g, h⟩

theorem Satellite.handle_asks (k : Codecs) {url : String} (hurl : url ≠ "") {s : Satellite}
    (himei : s.imei ≠ "") : ∃ next : (Op.resolve s.imei url).Answer → Handler Answer,
      s.handle k url = .ask (.resolve s.imei url) next ∧
        ∀ owner : String, owner ≠ url → next owner = .done .forbidden := by
  -- Whatever follows the question, another owner is refused.
  have hrefuse (imei : String) (rest : Handler Answer) :
      ∃ next : (Op.resolve imei url).Answer → Handler Answer,
        (do
          let own ← do
            let owner ← Ask.resolve imei url
            pure (decide (owner = url))
          if own then rest else pure .forbidden) = .ask (.resolve imei url) next ∧
          ∀ owner : String, owner ≠ url → next owner = .done .forbidden :=
    ⟨_, rfl, fun owner howner => if_neg (by simpa using howner)⟩
  cases s with
  | rockblock f =>
    have himei : f.imei ≠ "" := himei
    simp only [Satellite.handle, RockblockForm.serveHTTP, if_neg himei, ownDevice, if_neg hurl]
    exact hrefuse f.imei _
  | cloudloop mo =>
    have himei : mo.extractIMEI ≠ "" := himei
    simp only [Satellite.handle, LingoMO.processLingoMO, if_neg himei, ownDevice, if_neg hurl]
    exact hrefuse mo.extractIMEI _

theorem Satellite.handle_nameless (k : Codecs) (url : String) {s : Satellite}
    (himei : s.imei = "") : s.handle k url = .done .missingIMEI := by
  cases s with
  | rockblock f | cloudloop mo => exact if_pos himei

namespace Posting

theorem run_refused (h : g.Agrees cfg.registry) (hurl : d.url ≠ "")
    (hrefused : d.accepted cfg = false) :
    (d.run cfg g).state.seen = g.seen ∧ (d.run cfg g).state.rows = g.rows ∧
      (d.run cfg g).state.reassemblers = g.reassemblers ∧ (d.run cfg g).emits = [] ∧
      (d.run cfg g).value =
        if (d.footprint cfg).device = "" then .missingIMEI else .forbidden := by
  cases hform : d.form with
  | sms f => simp [accepted, hform] at hrefused
  | satellite s =>
    have hne : cfg.registry.tenantOf defaultTenant s.imei d.url ≠ d.url := by
      simpa [accepted, hform] using hrefused
    have hdevice : (d.footprint cfg).device = s.imei := by
      simp only [footprint, hform]
      rfl
    have hhandle : d.handle cfg = s.handle cfg.codecs d.url := by
      simp only [handle, hform]
    unfold run
    rw [hhandle, hdevice]
    by_cases himei : s.imei = ""
    · rw [Satellite.handle_nameless cfg.codecs d.url himei, if_pos himei]
      exact ⟨rfl, rfl, rfl, rfl, rfl⟩
    · obtain ⟨next, hnext, hforbidden⟩ := Satellite.handle_asks cfg.codecs hurl himei
      have hlookup : (g.lookup cfg d.replica (d.choices 0) s.imei d.url).1 ≠ d.url := by
        rw [Store.lookup_value h]
        exact hne
      have hrun : (Proc.ask (.resolve s.imei d.url) next).run (d.respond cfg) id g = _ :=
        run_ask_done (hforbidden _ hlookup)
      rw [hnext, if_neg himei, hrun]
      exact ⟨rfl, rfl, rfl, rfl, rfl⟩

end Posting

variable {mine : List Footprint} {s t : Store}

/-- Two stores that deliveries with the given footprints cannot tell apart. -/
structure Alike (reg : Registry) (mine : List Footprint) (s t : Store) : Prop where
  left : s.Agrees reg
  right : t.Agrees reg
  seen : ∀ p ∈ mine, ∀ key, p.key = some key → s.seen key = t.seen key
  rows : ∀ p ∈ mine, s.rows p.messageID = t.rows p.messageID
  pending : ∀ p ∈ mine, p.fragment = true →
    ∀ n, s.reassemblers n p.device = t.reassemblers n p.device

variable {reg : Registry}

theorem Alike.symm (h : Alike reg mine s t) : Alike reg mine t s where
  left := h.right
  right := h.left
  seen := fun p hp key hkey => (h.seen p hp key hkey).symm
  rows := fun p hp => (h.rows p hp).symm
  pending := fun p hp hfragment n => (h.pending p hp hfragment n).symm

structure Footprint.Apart (p q : Footprint) : Prop where
  key : ∀ key, p.key = some key → q.key ≠ some key
  messageID : p.messageID ≠ q.messageID
  fragment : p.fragment = true → q.fragment = true → p.device ≠ q.device

theorem Alike.of_spares (h : Alike reg mine s t) {q : Footprint} {s' : Store} (hs' : s'.Agrees reg)
    (hspares : q.Spares s s') (hapart : ∀ p ∈ mine, p.Apart q) : Alike reg mine s' t where
  left := hs'
  right := h.right
  seen := fun p hp key hkey =>
    (hspares.seen key ((hapart p hp).key key hkey)).trans (h.seen p hp key hkey)
  rows := fun p hp => (hspares.rows _ (hapart p hp).messageID).trans (h.rows p hp)
  pending := fun p hp hfragment n =>
    (hspares.pending p.device (fun hq => (hapart p hp).fragment hfragment hq) n).trans
      (h.pending p hp hfragment n)

theorem Alike.run_left (h : Alike cfg.registry mine s t) (hurl : d.url ≠ "")
    (hapart : d.accepted cfg → ∀ p ∈ mine, p.Apart (d.footprint cfg)) :
    Alike cfg.registry mine (d.run cfg s).state t := by
  obtain ⟨hspares, hagrees⟩ := d.run_spares h.left
  cases haccepted : d.accepted cfg with
  | true => exact h.of_spares hagrees hspares (hapart haccepted)
  | false =>
    obtain ⟨hseen, hrows, hpending, -, -⟩ := d.run_refused h.left hurl haccepted
    refine ⟨hagrees, h.right, ?_, ?_, ?_⟩
    · exact fun p hp key hkey => (congrFun hseen key).trans (h.seen p hp key hkey)
    · exact fun p hp => (congrFun hrows _).trans (h.rows p hp)
    · intro p hp hfragment n
      rw [hpending]
      exact h.pending p hp hfragment n

theorem Alike.lookup (h : Alike cfg.registry mine s t) (n : Nat) (id auth : String) :
    Alike cfg.registry mine (s.lookup cfg d.replica (d.choices n) id auth).2
      (t.lookup cfg d.replica (d.choices n) id auth).2 where
  left := Store.lookup_agrees h.left d.replica n id auth
  right := Store.lookup_agrees h.right d.replica n id auth
  seen := h.seen
  rows := h.rows
  pending := h.pending

theorem Alike.file (h : Alike reg mine s t) (hp : p ∈ mine)
    (heffect : ∀ m, effect = .insert m → m.id = p.messageID) (cfg : Config) (c : Choice)
    (tenant device : String) :
    Alike reg mine (s.file cfg c tenant device effect).1 (t.file cfg c tenant device effect).1 ∧
      (s.file cfg c tenant device effect).2 = (t.file cfg c tenant device effect).2 := by
  have hplace : effect.takesPlace cfg s c tenant device = effect.takesPlace cfg t c tenant device :=
    Effect.takesPlace_congr (fun m hm => heffect m hm ▸ h.rows p hp) tenant device
  unfold Store.file
  rw [hplace]
  split
  · refine ⟨?_, rfl⟩
    cases effect with
    | insert m =>
      refine ⟨h.left, h.right, h.seen, fun q hq => ?_, h.pending⟩
      by_cases hid : q.messageID = m.id
      · simp only [hid, update_self]
      · simp only [update_of_ne hid]
        exact h.rows q hq
    | _ => exact h
  · exact ⟨h, rfl⟩

theorem Alike.isNew (h : Alike reg mine s t) {key : String} (hkey : s.seen key = t.seen key)
    (cfg : Config) (c : Choice) : Alike reg mine (s.isNew cfg c key).2 (t.isNew cfg c key).2 ∧
      (s.isNew cfg c key).1 = (t.isNew cfg c key).1 := by
  unfold Store.isNew
  rw [hkey]
  split
  · exact ⟨h, rfl⟩
  · refine ⟨⟨h.left, h.right, fun q hq key' hkey' => ?_, h.rows, h.pending⟩, rfl⟩
    by_cases heq : key' = key
    · simp only [heq, update_self]
    · simp only [update_of_ne heq]
      exact h.seen q hq key' hkey'

section
variable (h : Alike cfg.registry mine s t)
include h

theorem Alike.addFragment (hp : d.footprint cfg ∈ mine)
    (hfragment : (d.footprint cfg).fragment) (data : Bytes) :
    Alike cfg.registry mine (d.respond cfg s n (.addFragment (d.footprint cfg).device data)).state
        (d.respond cfg t n (.addFragment (d.footprint cfg).device data)).state ∧
      (d.respond cfg s n (.addFragment (d.footprint cfg).device data)).answer =
        (d.respond cfg t n (.addFragment (d.footprint cfg).device data)).answer := by
  obtain ⟨hanswer, hdevice⟩ :=
    addFragment_congr (h.pending _ hp hfragment d.replica) data (d.clock n)
  refine ⟨⟨h.left, h.right, h.seen, h.rows, fun q hq hqfragment m => ?_⟩, hanswer⟩
  simp only [Posting.respond, respond]
  by_cases hm : m = d.replica
  · subst hm
    simp only [update_self]
    by_cases heq : q.device = (d.footprint cfg).device
    · rw [heq]
      exact hdevice
    · rw [addFragment_other heq, addFragment_other heq]
      exact h.pending q hq hqfragment d.replica
  · simp only [update_of_ne hm]
    exact h.pending q hq hqfragment m

theorem respond_alike (hp : d.footprint cfg ∈ mine) (hallows : d.Allows cfg op) :
    Alike cfg.registry mine (d.respond cfg s n op).state (d.respond cfg t n op).state ∧
      (d.respond cfg s n op).emits = (d.respond cfg t n op).emits ∧
      (d.respond cfg s n op).answer = (d.respond cfg t n op).answer := by
  have hvalue (id auth : String) : (s.lookup cfg d.replica (d.choices n) id auth).1 =
      (t.lookup cfg d.replica (d.choices n) id auth).1 :=
    (Store.lookup_value h.left d.replica n id auth).trans
      (Store.lookup_value h.right d.replica n id auth).symm
  cases op with
  | resolve id auth => exact ⟨h.lookup n id auth, rfl, hvalue id auth⟩
  | file id auth effect =>
    obtain ⟨halike, hemits⟩ := (h.lookup n id auth).file hp hallows.2.2 cfg (d.choices n)
      (t.lookup cfg d.replica (d.choices n) id auth).1 id
    simp only [Posting.respond, respond, hvalue id auth]
    exact ⟨halike, hemits, rfl⟩
  | fileAs tenant id effect =>
    obtain ⟨halike, hemits⟩ := h.file hp hallows.2 cfg (d.choices n) tenant id
    exact ⟨halike, hemits, rfl⟩
  | isNew key =>
    obtain ⟨halike, hanswer⟩ := h.isNew (h.seen _ hp key hallows) cfg (d.choices n)
    exact ⟨halike, rfl, hanswer⟩
  | handleInbound bearer origin text =>
    simp only [Posting.respond, respond]
    split <;> exact ⟨h, rfl, rfl⟩
  | claims device data mtu =>
    obtain ⟨rfl, hcases⟩ := hallows
    refine ⟨h, rfl, ?_⟩
    simp only [Posting.respond, respond]
    obtain hmtu | hdata | hfragment := hcases
    · rw [claims_eq_false (.inl hmtu), claims_eq_false (.inl hmtu)]
    · rw [claims_eq_false (.inr hdata), claims_eq_false (.inr hdata)]
    · exact claims_congr (h.pending _ hp hfragment d.replica) data mtu
  | addFragment device data =>
    obtain ⟨rfl, hfragment⟩ := hallows
    obtain ⟨halike, hanswer⟩ := h.addFragment (n := n) hp hfragment data
    exact ⟨halike, rfl, hanswer⟩
  | declaration id auth =>
    refine ⟨h.lookup n id auth, rfl, ?_⟩
    simp only [Posting.respond, respond, hvalue id auth]
  | takeSMS _ _ | publishHub _ | newID => exact ⟨h, rfl, rfl⟩

theorem Alike.run_both (hurl : d.url ≠ "") (hmine : d.accepted cfg → d.footprint cfg ∈ mine) :
    Alike cfg.registry mine (d.run cfg s).state (d.run cfg t).state ∧
      (d.run cfg s).emits = (d.run cfg t).emits ∧ (d.run cfg s).value = (d.run cfg t).value := by
  cases haccepted : d.accepted cfg with
  | true =>
    refine run_related (fun phase s t n op hst hallows => ?_) d.handle_follows h
    obtain ⟨halike, hemits, hanswer⟩ := respond_alike hst (hmine haccepted) hallows
    exact ⟨halike, hemits, hanswer, respond_expects hst.right n op⟩
  | false =>
    obtain ⟨-, -, -, hemits, hvalue⟩ := d.run_refused h.left hurl haccepted
    obtain ⟨-, -, -, hemits', hvalue'⟩ := d.run_refused h.right hurl haccepted
    have hleft := h.run_left hurl (by simp [haccepted])
    have hboth := (hleft.symm.run_left hurl (by simp [haccepted])).symm
    exact ⟨hboth, hemits.trans hemits'.symm, hvalue.trans hvalue'.symm⟩

end

namespace Posting

/-- Every management frame of the delivery is from a peer of the tenant. -/
def Familiar (cfg : Config) (d : Posting) (g : Store) : Prop :=
  ∀ v ∈ (d.run cfg g).visits, ∀ bearer origin text peer, v.op = .handleInbound bearer origin text →
    cfg.managed bearer origin text = some (some peer) → peer = d.url

def Own (cfg : Config) (d : Posting) : Prop :=
  ∀ f owner, d.form = .sms f → cfg.registry.deviceOwner f.sender = some owner → owner = d.url

theorem tenantOf_eq (hurl : d.url ≠ "") (hrow : d.url ∈ cfg.registry.tenantRows)
    (hown : d.Own cfg) (haccepted : d.accepted cfg) :
    cfg.registry.tenantOf defaultTenant (d.footprint cfg).device (authTenant d.url) = d.url := by
  have hauth : authTenant d.url = d.url := if_neg hurl
  rw [hauth]
  cases hform : d.form with
  | satellite s =>
    have hdevice : (d.footprint cfg).device = s.imei := by
      simp only [footprint, hform]
      rfl
    rw [hdevice]
    simpa [accepted, hform] using haccepted
  | sms f =>
    rw [footprint_sms hform, Registry.tenantOf]
    cases howner : cfg.registry.deviceOwner f.sender with
    | some owner => exact hown f owner hform howner
    | none => simp [Registry.home, hurl, hrow]

end Posting

theorem respond_emits_own (h : g.Agrees cfg.registry) (hurl : d.url ≠ "")
    (hhome : cfg.registry.tenantOf defaultTenant (d.footprint cfg).device (authTenant d.url) =
      d.url) (hallows : d.Allows cfg op)
    (hframe : ∀ bearer origin text peer, op = .handleInbound bearer origin text →
      cfg.managed bearer origin text = some (some peer) → peer = d.url)
    {e : Entry} (he : e ∈ (d.respond cfg g n op).emits) {tenant : String}
    (htenant : e.tenant = some tenant) : tenant = d.url := by
  cases op with
  | file id auth effect =>
    obtain ⟨rfl, rfl, -⟩ := hallows
    obtain ⟨-, rfl⟩ := Store.mem_file.1 he
    rw [Store.lookup_value h, hhome] at htenant
    exact (some.inj htenant).symm
  | fileAs tenant' id effect =>
    obtain ⟨rfl, -⟩ := hallows
    obtain ⟨-, rfl⟩ := Store.mem_file.1 he
    rw [hhome] at htenant
    exact (some.inj htenant).symm
  | handleInbound bearer origin text =>
    simp only [Posting.respond, respond] at he
    split at he
    case h_1 peer hmanaged =>
      rw [mem_singleton.1 he] at htenant
      have hpeer : peer = some tenant := htenant
      exact hframe bearer origin text tenant rfl (hpeer ▸ hmanaged)
    case h_2 => cases he
  | takeSMS tenant' sms =>
    have htenant' : tenant' = d.url := hallows.trans (if_neg hurl)
    simp only [Posting.respond, respond] at he
    split at he
    · rw [mem_singleton.1 he] at htenant
      exact (some.inj htenant).symm.trans htenant'
    · cases he
  | publishHub payload =>
    simp only [Posting.respond, respond] at he
    split at he
    · cases he
    · rw [mem_singleton.1 he] at htenant
      cases htenant
  | resolve _ _ | isNew _ | claims _ _ _ | addFragment _ _ | declaration _ _ | newID =>
    exact absurd he (by simp [Posting.respond, respond])

theorem Posting.emits_own (h : g.Agrees cfg.registry) (hurl : d.url ≠ "")
    (hrow : d.url ∈ cfg.registry.tenantRows) (hown : d.Own cfg) (hfamiliar : d.Familiar cfg g)
    {e : Entry} (he : e ∈ (d.run cfg g).emits) {tenant : String}
    (htenant : e.tenant = some tenant) : tenant = d.url := by
  cases haccepted : d.accepted cfg with
  | false =>
    obtain ⟨-, -, -, hemits, -⟩ := d.run_refused h hurl haccepted
    rw [hemits] at he
    cases he
  | true =>
    obtain ⟨v, hv, he⟩ := mem_emits_iff.1 he
    have hstep : ∀ phase (g : Store) n op, g.Agrees cfg.registry → (d.conduct cfg).allows phase op →
        (d.respond cfg g n op).state.Agrees cfg.registry ∧
          (d.conduct cfg).may phase op (d.respond cfg g n op).answer :=
      fun _ _ n op hg _ => ⟨respond_agrees hg n op, respond_expects hg n op⟩
    obtain ⟨hagrees, _, hallows⟩ := run_visits hstep d.handle_follows h v hv
    exact respond_emits_own hagrees hurl (d.tenantOf_eq hurl hrow hown haccepted) hallows
      (hfamiliar v hv) he htenant

end

variable {cfg : Config}

def Served.Own (o : Served) : Prop :=
  ∀ e ∈ o.emits, ∀ tenant, e.tenant = some tenant → tenant = o.posting.url

variable {s t : Desk} {mine : List Footprint} {tenant : String} {d : Posting}

theorem foldl_serve_own {history : List Posting}
    (hurls : ∀ d ∈ history, d.url ≠ "" ∧ d.url ∈ cfg.registry.tenantRows)
    (hown : ∀ d ∈ history, d.Own cfg) (hs : s.store.Agrees cfg.registry)
    (hfamiliar : Along (Desk.serve cfg) (fun s d => d.Familiar cfg s.store) s history)
    (hserved : ∀ o ∈ s.served, o.Own) : ∀ o ∈ (history.foldl (Desk.serve cfg) s).served, o.Own := by
  induction history generalizing s with
  | nil => exact hserved
  | cons d rest ih =>
    obtain ⟨hurl, hrow⟩ := hurls d (by simp)
    refine ih (fun e he => hurls e (by simp [he])) (fun e he => hown e (by simp [he]))
      (d.run_spares hs).2 hfamiliar.2 ?_
    intro o ho
    obtain ho | ho := mem_append.1 ho
    · exact hserved o ho
    · rw [mem_singleton.1 ho]
      intro e he tenant htenant
      exact d.emits_own hs hurl hrow (hown d (by simp)) hfamiliar.1 he htenant

def footprintsOf (cfg : Config) (tenant : String) (history : List Posting) : List Footprint :=
  (history.filter fun d => d.url = tenant && d.accepted cfg).map (Posting.footprint cfg)

/-- Two states in which a tenant's deliveries have ended and will end the same way. -/
structure Desk.Alike (cfg : Config) (tenant : String) (mine : List Footprint) (s t : Desk) :
    Prop where
  store : Inbound.Alike cfg.registry mine s.store t.store
  served : s.of tenant = t.of tenant

section
variable (h : Desk.Alike cfg tenant mine s t)
include h

namespace Desk

theorem Alike.symm : Alike cfg tenant mine t s :=
  ⟨h.store.symm, h.served.symm⟩

theorem Alike.serve_left (hurl : d.url ≠ "") (hother : d.url ≠ tenant)
    (hapart : d.accepted cfg → ∀ p ∈ mine, p.Apart (d.footprint cfg)) :
    Alike cfg tenant mine (s.serve cfg d) t where
  store := h.store.run_left hurl hapart
  served := by
    rw [← h.served]
    simp [serve, of, filter_append, hother]

theorem Alike.serve_both (hurl : d.url ≠ "") (hmine : d.accepted cfg → d.footprint cfg ∈ mine)
    : Alike cfg tenant mine (s.serve cfg d) (t.serve cfg d) := by
  obtain ⟨hstore, hemits, hvalue⟩ := h.store.run_both hurl hmine
  have hserved := h.served
  refine ⟨hstore, ?_⟩
  simp only [of] at hserved
  simp only [serve, of, filter_append, hserved, hemits, hvalue]

end Desk

end

/-- Deliveries at tenants' own URLs, of which no SMS is from a device of another tenant and no
management frame from a peer of another, file everything under the tenant of the URL; and where
the accepted ones at other URLs are apart from a tenant's, they do not matter to it. -/
theorem webhooks_isolated {cfg : Config} {g : Store} (hg : g.Agrees cfg.registry) {tenant : String}
    {history other : List Posting}
    (hurls : ∀ d ∈ history ++ other, d.url ≠ "" ∧ d.url ∈ cfg.registry.tenantRows)
    (hsame : (history.filter fun d => d.url = tenant) = other.filter fun d => d.url = tenant)
    (hown : ∀ d ∈ history, d.Own cfg)
    (hfamiliar : Along (Desk.serve cfg) (fun s d => d.Familiar cfg s.store) ⟨g, []⟩ history)
    (hapart : ∀ d ∈ history ++ other, d.url ≠ tenant → d.accepted cfg = true →
      ∀ p ∈ footprintsOf cfg tenant history, p.Apart (d.footprint cfg)) :
    (∀ o ∈ (serveAll cfg g history).served, ∀ e ∈ o.emits, ∀ t, e.tenant = some t →
        t = o.posting.url) ∧
      (serveAll cfg g history).of tenant = (serveAll cfg g other).of tenant := by
  constructor
  · exact foldl_serve_own (fun d hd => hurls d (by simp [hd])) hown hg hfamiliar (by simp)
  · have hstart : Desk.Alike cfg tenant (footprintsOf cfg tenant history) ⟨g, []⟩ ⟨g, []⟩ :=
      ⟨⟨hg, hg, fun _ _ _ _ => rfl, fun _ _ => rfl, fun _ _ _ _ => rfl⟩, rfl⟩
    have hleft : Along (Desk.serve cfg) (fun _ d => d ∈ history) ⟨g, []⟩ history :=
      Along.of_forall fun _ hd _ => hd
    have hright : Along (Desk.serve cfg) (fun _ d => d ∈ other) ⟨g, []⟩ other :=
      Along.of_forall fun _ hd _ => hd
    have hshown : Forall₂ (fun d e => d = e) (history.filter fun d => !decide (d.url ≠ tenant))
        (other.filter fun d => !decide (d.url ≠ tenant)) := by
      simp only [ne_eq, decide_not, Bool.not_not, hsame, forall₂_eq_eq_eq]
    refine (foldl_related (fun d => decide (d.url ≠ tenant)) ?_ ?_ ?_ history other hshown hleft
      hright hstart).served
    · intro s t d hd hmem h
      have hmem : d ∈ history ++ other := mem_append_left _ hmem
      exact h.serve_left (hurls d hmem).1 (of_decide_eq_true hd)
        (hapart d hmem (of_decide_eq_true hd))
    · intro s t d hd hmem h
      have hmem : d ∈ history ++ other := mem_append_right _ hmem
      exact (h.symm.serve_left (hurls d hmem).1 (of_decide_eq_true hd)
        (hapart d hmem (of_decide_eq_true hd))).symm
    · rintro s t d _ hd rfl hmem - h
      have hurl : d.url = tenant := by simpa using hd
      refine h.serve_both (hurls d (mem_append_left _ hmem)).1 fun haccepted => ?_
      exact mem_map_of_mem (mem_filter.2 ⟨hmem, by simp [hurl, haccepted]⟩)

def twoTenants : Config :=
  { oneModem with
    registry := ⟨fun id => if id = "3001" ∨ id = "+3161" then ["acme"] else [], fun _ => [],
      ["acme", "globex"]⟩ }

def postedAt (url : String) (form : Form) : Posting :=
  ⟨url, 0, form, id, fun _ => false, fun _ => false, ""⟩

def smsAt (url sender : String) : Posting :=
  postedAt url (.sms ⟨sender, "", [104, 105], "SM-" ++ url, ""⟩)

/-- A modem's message at one URL, with and without an SMS at the other. -/
theorem webhooks_isolated_modem : (∀ o ∈ (serveAll twoTenants emptyStore [smsAt "globex" "+3162",
        postedAt "acme" (.satellite (.rockblock hello))]).served, ∀ e ∈ o.emits, ∀ t,
          e.tenant = some t → t = o.posting.url) ∧
      (serveAll twoTenants emptyStore [smsAt "globex" "+3162",
          postedAt "acme" (.satellite (.rockblock hello))]).of "acme" =
        (serveAll twoTenants emptyStore [postedAt "acme" (.satellite (.rockblock hello))]).of
          "acme" := by
  have hagrees : emptyStore.Agrees twoTenants.registry :=
    fun _ => newResolver_agrees twoTenants.registry defaultTenant 30
  apply webhooks_isolated hagrees
  · simp [smsAt, postedAt, twoTenants]
  · simp [smsAt, postedAt]
  · intro d hd f owner hform howner
    simp only [mem_cons, not_mem_nil, or_false] at hd
    obtain rfl | rfl := hd
    · have hnone : twoTenants.registry.deviceOwner "+3162" = none := by decide +kernel
      cases hform
      rw [hnone] at howner
      cases howner
    · cases hform
  · exact Along.of_forall fun d _ s v _ bearer origin text peer _ hpeer => by cases hpeer
  · intro d hd hother _ p hp
    have hall : ∀ p ∈ footprintsOf twoTenants "acme" [smsAt "globex" "+3162",
        postedAt "acme" (.satellite (.rockblock hello))],
        p.key ≠ ((smsAt "globex" "+3162").footprint twoTenants).key ∧
          p.messageID ≠ ((smsAt "globex" "+3162").footprint twoTenants).messageID ∧
            p.fragment = false := by decide +kernel
    obtain ⟨hkey, hid, hfragment⟩ := hall p hp
    simp only [mem_append, mem_cons, not_mem_nil, or_false] at hd
    obtain (rfl | rfl) | rfl := hd
    · exact ⟨fun key hp hq => hkey (hp.trans hq.symm), hid, fun h => by simp [hfragment] at h⟩
    · exact absurd rfl hother
    · exact absurd rfl hother

/-- An SMS to one tenant's number from a phone that another has registered is filed under the
other; and the same text sent to two tenants reaches only the first. -/
theorem webhooks_interfere :
    (∃ o ∈ (serveAll twoTenants emptyStore [smsAt "globex" "+3161"]).served,
        o.posting.url = "globex" ∧ ∃ e ∈ o.emits, e.tenant = some "acme") ∧
      ((serveAll twoTenants emptyStore [smsAt "globex" "+3162", smsAt "acme" "+3162"]).of
        "acme").map Served.answer = [.duplicate] ∧
      ((serveAll twoTenants emptyStore [smsAt "acme" "+3162"]).of "acme").map Served.answer =
        [.ok] := by
  refine ⟨by decide +kernel, by decide +kernel, by decide +kernel⟩

end MeshsatHub.Inbound
