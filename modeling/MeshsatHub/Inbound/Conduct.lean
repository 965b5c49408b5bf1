import MeshsatHub.Inbound.Handlers

/-!
# What the satellite handlers ask for

A satellite handler speaks for one device and one URL, marks one key in the duplicate filter, and
publishes and stores under one message id (`Satellite.handle_follows`). The SMS handler does not put
a text to the duplicate filter at all.
-/

namespace MeshsatHub.Inbound
open Egress Procedures Tenancy

structure Terms where
  device : String
  url : String
  key : String
  messageID : String
  data : Bytes

def Effect.Carries (w : Terms) : Effect → Prop
  | .insert m => m.id = w.messageID
  | .publish .moDecoded (.decoded m) => m.id = w.messageID
  | _ => True

/-- How far a satellite message has come. -/
inductive Phase where
  | start
  | fresh
  | repeated
  | filed
  deriving DecidableEq

def Terms.Allows (w : Terms) : Phase → Op → Prop
  | _, .resolve id _ => id = w.device
  | phase, .file id auth effect => id = w.device ∧ auth = authTenant w.url ∧ effect.Carries w ∧
      ∀ m, effect = .insert m → phase = .fresh
  | .start, .isNew key => key = w.key
  | .fresh, .handleInbound _ _ _ => True
  | .fresh, .claims device data _ => device = w.device ∧ data = w.data
  | .fresh, .addFragment device data => device = w.device ∧ data = w.data ∧ isFragment data = true
  | .fresh, .declaration id auth => id = w.device ∧ auth = authTenant w.url
  | _, _ => False

/-- Only a payload of the shape of a fragment is taken for one. -/
def Expected : (op : Op) → op.Answer → Prop
  | .claims _ data _, answer => answer = true → isFragment data = true
  | _, _ => True

/-- The filter opens the way to the insert. -/
def Phase.next (phase : Phase) : (op : Op) → op.Answer → Phase
  | .isNew _, answer => cond answer .fresh .repeated
  | .file _ _ (.insert _), _ => .filed
  | _, _ => phase

def Terms.conduct (w : Terms) : Discipline Op Op.Answer Phase where
  allows := w.Allows
  may := fun _ => Expected
  advance := Phase.next

def Answer.Suits : Answer → Phase → Prop
  | .ok, phase => phase = .filed
  | .duplicate, phase => phase = .repeated
  | _, _ => True

variable {w : Terms}

theorem ownDevice_follows (phase : Phase) :
    (ownDevice w.url w.device).Follows w.conduct (fun _ phase' => phase' = phase) phase := by
  refine follows_ite (fun _ => rfl) fun _ => ?_
  exact follows_perform_bind rfl fun _ _ => rfl

theorem handleBridgeSatUplink_follows (bearer : String) (raw : Bytes) (phase : Phase) :
    (handleBridgeSatUplink (authTenant w.url) bearer w.device raw).Follows w.conduct
      (fun _ phase' => phase' = phase) phase := by
  refine follows_ite (fun _ => ?_) fun _ => rfl
  exact follows_perform_bind ⟨rfl, rfl, trivial, nofun⟩ fun _ _ => rfl

theorem reassemble_follows (mtu : Nat) :
    (reassemble w.device w.data mtu).Follows w.conduct (fun found phase => phase = .fresh ∧
      ∀ answer, found = .error answer → answer ≠ .ok ∧ answer ≠ .duplicate) .fresh := by
  refine follows_perform_bind ⟨rfl, rfl⟩ fun (claimed : Bool) hclaimed => ?_
  refine follows_ite (fun h => ?_) fun _ => ⟨rfl, nofun⟩
  refine follows_perform_bind ⟨rfl, rfl, hclaimed h⟩ fun (added : Added) _ => ?_
  cases added with
  | failed | waiting => exact ⟨rfl, by rintro _ ⟨⟩; exact ⟨nofun, nofun⟩⟩
  | whole data => exact ⟨rfl, nofun⟩

theorem declaration_follows (u : Unwrapped) :
    (declaration (authTenant w.url) w.device u).Follows w.conduct
      (fun _ phase => phase = .fresh) .fresh := by
  refine follows_ite (fun _ => rfl) fun _ => ?_
  exact follows_perform ⟨rfl, rfl⟩ fun _ _ => rfl

theorem fileMO_follows {m : MOMessage} (hid : m.id = w.messageID) (himei : m.imei = w.device)
    (position : Option PositionMessage) (actor detail ip : String) :
    (fileMO (authTenant w.url) m position actor detail ip).Follows w.conduct Answer.Suits
      .fresh := by
  refine follows_perform_bind ⟨himei, rfl, hid, nofun⟩ fun _ _ => ?_
  refine follows_perform_bind ⟨himei, rfl, trivial, nofun⟩ fun _ _ => ?_
  refine follows_perform_bind ⟨himei, rfl, hid, fun _ _ => rfl⟩ fun _ _ => ?_
  have hlast : ∀ u : Unit, (do
      Ask.file m.imei (authTenant w.url) .checkIn
      Ask.file m.imei (authTenant w.url) (.audit actor detail ip)
      pure .ok : Handler Answer).Follows w.conduct Answer.Suits .filed := by
    intro _
    refine follows_perform_bind ⟨himei, rfl, trivial, nofun⟩ fun _ _ => ?_
    exact follows_perform_bind ⟨himei, rfl, trivial, nofun⟩ fun _ _ => rfl
  cases position with
  | some p => exact follows_perform_bind ⟨himei, rfl, trivial, nofun⟩ fun _ _ => hlast ()
  | none => exact hlast ()

theorem orAnswer_follows {next : Option Bytes → Handler Answer}
    {found : Except Answer (Option Bytes)}
    (hfound : ∀ answer, found = .error answer → answer ≠ .ok ∧ answer ≠ .duplicate)
    (hnext : ∀ whole, (next whole).Follows w.conduct Answer.Suits .fresh) :
    (orAnswer next found).Follows w.conduct Answer.Suits .fresh := by
  cases found with
  | ok whole => exact hnext whole
  | error answer =>
    obtain ⟨hok, hduplicate⟩ := hfound answer rfl
    cases answer with
    | ok => exact absurd rfl hok
    | duplicate => exact absurd rfl hduplicate
    | _ => trivial

variable (k : Codecs) (url : String) (raw : Bytes)

/-- What a satellite delivery with a payload speaks for. -/
def Satellite.termsWith (s : Satellite) : Terms where
  device := s.imei
  url := url
  key := s.dedupKey k raw
  messageID := s.messageID k
  data := raw

/-- What a satellite delivery speaks for. A payload that cannot be decoded counts as empty. -/
def Satellite.terms (s : Satellite) : Terms := s.termsWith k url ((s.payload k).getD [])

namespace RockblockForm

theorem process_follows (f : RockblockForm) (data : Bytes) :
    (f.process k (authTenant url) data).Follows
      ((Satellite.rockblock f).termsWith k url raw).conduct
      Answer.Suits .fresh := by
  refine (declaration_follows _).bind fun d phase hphase => ?_
  subst hphase
  exact fileMO_follows rfl rfl _ _ _ _

theorem manage_follows (f : RockblockForm) :
    (f.manage raw).Follows ((Satellite.rockblock f).termsWith k url raw).conduct
      (fun _ phase => phase = .fresh) .fresh :=
  follows_ite (fun _ => follows_perform trivial fun _ _ => rfl) fun _ => rfl

theorem receive_follows (f : RockblockForm) : (f.receive k (authTenant url) raw).Follows
      ((Satellite.rockblock f).termsWith k url raw).conduct Answer.Suits .fresh := by
  refine (f.manage_follows k url raw).bind fun managed phase hphase => ?_
  subst hphase
  refine follows_ite (fun _ => trivial) fun _ => ?_
  refine (handleBridgeSatUplink_follows "sbd" raw .fresh).bind fun uplink phase hphase => ?_
  subst hphase
  refine follows_ite (fun _ => trivial) fun _ => ?_
  refine follows_perform_bind ⟨rfl, rfl, trivial, nofun⟩ fun _ _ => ?_
  refine (reassemble_follows iridiumMOMTU).bind fun found phase hfound => ?_
  obtain ⟨rfl, herror⟩ := hfound
  exact orAnswer_follows herror fun whole => f.process_follows k url raw (whole.getD raw)

theorem accept_follows (f : RockblockForm) : (f.accept k (authTenant url) raw).Follows
      ((Satellite.rockblock f).termsWith k url raw).conduct Answer.Suits .start := by
  refine follows_perform_bind ⟨rfl, rfl, trivial, nofun⟩ fun _ _ => ?_
  refine follows_perform_bind rfl fun (isNew : Bool) _ => ?_
  cases isNew with
  | true => exact f.receive_follows k url raw
  | false => rfl

theorem serveHTTP_follows (f : RockblockForm) :
    (f.serveHTTP k url).Follows ((Satellite.rockblock f).terms k url).conduct
      Answer.Suits .start := by
  refine follows_ite (fun _ => trivial) fun _ => ?_
  refine (ownDevice_follows .start).bind fun own phase hphase => ?_
  subst hphase
  refine follows_ite (fun _ => ?_) fun _ => trivial
  cases hraw : k.decodeHex f.data with
  | none => trivial
  | some raw =>
    have hterms : (Satellite.rockblock f).terms k url =
        (Satellite.rockblock f).termsWith k url raw := by
      simp [Satellite.terms, Satellite.payload, hraw]
    rw [hterms]
    exact f.accept_follows k url raw

end RockblockForm

namespace LingoMO

theorem manage_follows (mo : LingoMO) (text : Bytes) :
    (mo.manage text).Follows ((Satellite.cloudloop mo).termsWith k url raw).conduct
      (fun _ phase => phase = .fresh) .fresh :=
  follows_ite (fun _ => rfl) fun _ => follows_perform trivial fun _ _ => rfl

theorem process_follows (mo : LingoMO) (reticulum : Bool) (wire data : Bytes) :
    (mo.process k (authTenant url) reticulum wire data).Follows
      ((Satellite.cloudloop mo).termsWith k url raw).conduct Answer.Suits .fresh := by
  refine (declaration_follows _).bind fun d phase hphase => ?_
  subst hphase
  refine (mo.manage_follows k url raw _).bind fun managed phase hphase => ?_
  subst hphase
  refine follows_ite (fun _ => trivial) fun _ => ?_
  exact fileMO_follows rfl rfl _ _ _ _

theorem receive_follows (mo : LingoMO) : (mo.receive k (authTenant url) raw).Follows
      ((Satellite.cloudloop mo).termsWith k url raw).conduct Answer.Suits .fresh := by
  refine (handleBridgeSatUplink_follows _ raw .fresh).bind fun uplink phase hphase => ?_
  subst hphase
  refine follows_ite (fun _ => trivial) fun _ => ?_
  refine follows_perform_bind ⟨rfl, rfl, trivial, nofun⟩ fun _ _ => ?_
  refine (reassemble_follows _).bind fun found phase hfound => ?_
  obtain ⟨rfl, herror⟩ := hfound
  exact orAnswer_follows herror fun whole => mo.process_follows k url raw _ _ _

theorem accept_follows (mo : LingoMO) : (mo.accept k (authTenant url) raw).Follows
      ((Satellite.cloudloop mo).termsWith k url raw).conduct Answer.Suits .start := by
  have hack : (mo.ackToBridge (authTenant url)).Follows
      ((Satellite.cloudloop mo).termsWith k url raw).conduct
      (fun _ phase => phase = .start) .start := by
    unfold ackToBridge
    cases mo.sbd with
    | some sbd => exact follows_perform ⟨rfl, rfl, trivial, nofun⟩ fun _ _ => rfl
    | none => rfl
  refine hack.bind fun _ phase hphase => ?_
  subst hphase
  refine follows_perform_bind rfl fun (isNew : Bool) _ => ?_
  cases isNew with
  | true => exact mo.receive_follows k url raw
  | false => rfl

theorem processLingoMO_follows (mo : LingoMO) :
    (mo.processLingoMO k url).Follows ((Satellite.cloudloop mo).terms k url).conduct
      Answer.Suits .start := by
  refine follows_ite (fun _ => trivial) fun _ => ?_
  refine (ownDevice_follows .start).bind fun own phase hphase => ?_
  subst hphase
  refine follows_ite (fun _ => ?_) fun _ => trivial
  refine follows_perform_bind rfl fun _ _ => ?_
  cases hraw : k.decodeBase64 mo.message with
  | none => trivial
  | some raw =>
    have hterms : (Satellite.cloudloop mo).terms k url =
        (Satellite.cloudloop mo).termsWith k url raw := by
      simp [Satellite.terms, Satellite.payload, hraw]
    rw [hterms]
    exact mo.accept_follows k url raw

end LingoMO

theorem Satellite.handle_follows (s : Satellite) :
    (s.handle k url).Follows (s.terms k url).conduct Answer.Suits .start := by
  cases s with
  | rockblock f => exact f.serveHTTP_follows k url
  | cloudloop mo => exact mo.processLingoMO_follows k url

end MeshsatHub.Inbound
