import MeshsatHub.Foundations.Interleaving
import MeshsatHub.Foundations.Strings

/-!
# Federation fan-out

A route to other Hubs (`NewFederationRelayHandler`) starts one relay for every `<peer>/<imei>` of
its filter, all with one message id. The receiving Hub claims a key of the sender, the message id
and the attempt, in which the device is no part, and sends if it wins. Lookups, the claim table and
the satellite send succeed. The lengths of texts (`Coding`) and the hash are parameters.
-/

namespace MeshsatHub.Federation
open Interleaving Runs Strings List

section

structure RelayFrame where
  msgID : String
  attempt : Nat
  fromIMEI : String
  toIMEI : String
  imtTopic : String
  wireB64 : String
  deriving DecidableEq

def maxAttempts : Nat := 3

def maxWireBytes : Nat := 100 * 1024

def isMsgIDChar (c : Char) : Bool :=
  c.isAlphanum || c = '.' || c = '_' || c = ':' || c = '-'

/-- `^[A-Za-z0-9._:-]{1,128}$` -/
def msgIDMatches (s : String) : Bool :=
  0 < s.toList.length && s.toList.length ≤ 128 && s.toList.all isMsgIDChar

/-- `^[0-9]{15}$` -/
def imeiMatches (s : String) : Bool := s.toList.length = 15 && s.toList.all Char.isDigit

/-- `^[A-Z0-9_]{0,64}$` -/
def topicMatches (s : String) : Bool :=
  s.toList.length ≤ 64 && s.toList.all fun c => c.isUpper || c.isDigit || c = '_'

/-- Every field is checked before anything is looked up. -/
def RelayFrame.validate (decodedLength : String → Option Nat) (f : RelayFrame) : Bool :=
  msgIDMatches f.msgID && (1 ≤ f.attempt && f.attempt ≤ maxAttempts) &&
    (imeiMatches f.fromIMEI && imeiMatches f.toIMEI) && topicMatches f.imtTopic &&
    (decodedLength f.wireB64).any fun n => 0 < n && n ≤ maxWireBytes

def maxRelayBody : Nat := 160 * 1024

/-- The length of what a base64 text stands for, and of the JSON of a frame. -/
structure Coding where
  decodedLength : String → Option Nat
  jsonLength : RelayFrame → Nat

/-- What `ServeHTTP` asks of a request: its body is within the bound and the frame is valid. -/
def RelayFrame.accepted (c : Coding) (f : RelayFrame) : Bool :=
  c.jsonLength f ≤ maxRelayBody && f.validate c.decodedLength

structure Routed where
  id : String
  device : String
  wire : String
  imtTopic : String
  payloadHash : String

structure Route where
  senders : String
  filter : String

structure Recipient where
  peer : String
  imei : String

def parseRecipients (filter : String) : List String :=
  if filter = "" then [] else ((split ',' filter).map trimSpace).filter fun p => p ≠ ""

/-- `<peer>/<imei>`, cut at the first slash. -/
def parseRecipient (r : String) : Option Recipient :=
  let peer := r.toList.takeWhile fun c => c ≠ '/'
  match r.toList.dropWhile fun c => c ≠ '/' with
  | _ :: imei =>
    if peer = [] ∨ imei = [] then none else some ⟨String.ofList peer, String.ofList imei⟩
  | [] => none

variable (route : Route)

def Route.recipients : List Recipient :=
  (parseRecipients route.filter).filterMap parseRecipient

def msgIDOK (id : String) : Bool :=
  id ≠ "" && id.toList.length ≤ 120 && id.toList.all isMsgIDChar

variable (m : Routed)

/-- The id of the message is the same for all recipients. -/
def Routed.msgID : String :=
  if msgIDOK m.id then "id-" ++ m.id else "mo-" ++ m.payloadHash

def Routed.frame (r : Recipient) : RelayFrame where
  msgID := m.msgID
  attempt := 1
  fromIMEI := m.device
  toIMEI := r.imei
  imtTopic := m.imtTopic
  wireB64 := m.wire

structure Relay where
  peer : String
  frame : RelayFrame
  deriving DecidableEq

/-- A route relays when the message has an original payload, the senders are named
and the dispatch has a tenant. -/
def Route.open (tenantID : String) (m : Routed) : Bool :=
  m.wire ≠ "" && (trimSpace route.senders ≠ "" && !route.senders.toList.contains '*') &&
    tenantID ≠ ""

def relayOf (r : Recipient) : Relay := ⟨r.peer, m.frame r⟩

def Route.dispatch (tenantID : String) (m : Routed) : List Relay :=
  if route.open tenantID m then route.recipients.map (relayOf m) else []

structure ClaimKey where
  peer : String
  msgID : String
  attempt : Nat
  deriving DecidableEq

def Relay.key (r : Relay) : ClaimKey := ⟨r.peer, r.frame.msgID, r.frame.attempt⟩

structure Receivers where
  claims : List ClaimKey
  sent : List Relay

inductive Stage where
  | posting (r : Relay)
  | sending (r : Relay)
  | answered
  deriving DecidableEq

variable (c : Coding)

/-- The receiving Hub claims, then sends. -/
def serve (g : Receivers) (l : Stage) (_ : Unit) : Option (Receivers × Stage) :=
  match l with
  | .posting r =>
    if r.frame.accepted c then
      if r.key ∈ g.claims then some (g, .answered)
      else some ({ g with claims := r.key :: g.claims }, .sending r)
    else some (g, .answered)
  | .sending r => some ({ g with sent := g.sent ++ [r] }, .answered)
  | .answered => none

def relaying : Program Receivers Stage Empty Unit where
  start := nofun
  perform := serve c

def started (claims : List ClaimKey) (relays : List Relay) : System Receivers Stage :=
  ⟨⟨claims, []⟩, relays.map .posting⟩

end

section Counting
variable {c : Coding} {claims : List ClaimKey} {relays : List Relay}

/-- The relay will be sent, having won the claim. -/
def Stage.owes (key : ClaimKey) : Stage → Bool
  | .sending r => r.key = key
  | _ => false

structure Accounted (c : Coding) (claims : List ClaimKey)
    (relays : List Relay) (s : System Receivers Stage) : Prop where
  won : ∀ key, s.shared.sent.countP (fun r => r.key = key) + s.calls.countP (Stage.owes key) =
    if key ∈ s.shared.claims ∧ key ∉ claims then 1 else 0
  claimed : claims ⊆ s.shared.claims
  sent : ∀ r ∈ s.shared.sent, r ∈ relays ∧ r.frame.accepted c = true
  sending : ∀ r, .sending r ∈ s.calls → r ∈ relays ∧ r.frame.accepted c = true
  posting : ∀ r, .posting r ∈ s.calls → r ∈ relays
  answered : ∀ r ∈ relays, .posting r ∈ s.calls ∨ r.frame.accepted c = false ∨
    r.key ∈ s.shared.claims

theorem accounted_started : Accounted c claims relays (started claims relays) where
  won := by
    intro key
    have hnone : (relays.map Stage.posting).countP (Stage.owes key) = 0 := by
      simp [countP_eq_zero, Stage.owes]
    simp [started, hnone]
  claimed := fun _ h => h
  sent := nofun
  sending := by simp [started]
  posting := by simp [started]
  answered := fun r hr => .inl (by simpa [started] using hr)

variable {i : Nat} {r : Relay} {s : System Receivers Stage}

theorem posting_or_of_set {calls : List Stage} {l l' : Stage} (hi : calls[i]? = some l)
    (hr : .posting r ∈ calls) : l = .posting r ∨ .posting r ∈ calls.set i l' := by
  obtain ⟨j, hj⟩ := mem_iff_getElem?.1 hr
  by_cases heq : i = j
  · subst heq
    exact .inl (Option.some.inj (hi.symm.trans hj))
  · exact .inr (mem_of_getElem? ((getElem?_set_ne heq).trans hj))

section
variable (h : Accounted c claims relays s)
include h

theorem Accounted.refused (hi : s.calls[i]? = some (.posting r))
    (hanswer : r.frame.accepted c = false ∨ r.key ∈ s.shared.claims) :
    Accounted c claims relays ⟨s.shared, s.calls.set i .answered⟩ := by
  refine ⟨?_, h.claimed, h.sent, ?_, ?_, ?_⟩
  · intro key
    obtain ⟨front, back, hcalls, hset, -⟩ := exists_split hi .answered
    have hwon := h.won key
    rw [hcalls] at hwon
    rw [hset]
    simpa [Stage.owes] using hwon
  · exact fun q hq => h.sending q ((mem_or_eq_of_mem_set hq).resolve_right nofun)
  · exact fun q hq => h.posting q ((mem_or_eq_of_mem_set hq).resolve_right nofun)
  · intro q hq
    obtain hposting | hrest := h.answered q hq
    · obtain hown | hposting := posting_or_of_set hi hposting
      · cases hown
        exact .inr hanswer
      · exact .inl hposting
    · exact .inr hrest

theorem Accounted.won_claim (hi : s.calls[i]? = some (.posting r))
    (hvalid : r.frame.accepted c) (hkey : r.key ∉ s.shared.claims) :
    Accounted c claims relays
      ⟨{ s.shared with claims := r.key :: s.shared.claims }, s.calls.set i (.sending r)⟩ := by
  have hr : r ∈ relays := h.posting r (mem_of_getElem? hi)
  refine ⟨?_, fun k hk => mem_cons_of_mem _ (h.claimed hk), h.sent, ?_, ?_, ?_⟩
  · intro key
    obtain ⟨front, back, hcalls, hset, -⟩ := exists_split hi (.sending r)
    have hwon := h.won key
    rw [hcalls] at hwon
    rw [hset]
    by_cases heq : r.key = key
    · -- the key was free, so nothing has been sent or owed under it
      subst heq
      have hfree : r.key ∉ claims := fun hk => hkey (h.claimed hk)
      rw [if_neg fun hand => hkey hand.1, countP_append, countP_cons] at hwon
      rw [if_pos ⟨mem_cons_self, hfree⟩, countP_append, countP_cons]
      have hsending : Stage.owes r.key (.sending r) := by simp [Stage.owes]
      rw [hsending]
      simp only [if_true] at hwon ⊢
      omega
    · have hne : key ≠ r.key := fun hk => heq hk.symm
      simpa [Stage.owes, heq, hne] using hwon
  · intro q hq
    obtain hq | heq := mem_or_eq_of_mem_set hq
    · exact h.sending q hq
    · cases heq
      exact ⟨hr, hvalid⟩
  · exact fun q hq => h.posting q ((mem_or_eq_of_mem_set hq).resolve_right nofun)
  · intro q hq
    obtain hposting | hinvalid | hclaimed := h.answered q hq
    · obtain hown | hposting := posting_or_of_set hi hposting
      · cases hown
        exact .inr (.inr mem_cons_self)
      · exact .inl hposting
    · exact .inr (.inl hinvalid)
    · exact .inr (.inr (mem_cons_of_mem _ hclaimed))

theorem Accounted.delivered (hi : s.calls[i]? = some (.sending r)) : Accounted c claims relays
      ⟨{ s.shared with sent := s.shared.sent ++ [r] }, s.calls.set i .answered⟩ := by
  refine ⟨?_, h.claimed, ?_, ?_, ?_, ?_⟩
  · intro key
    obtain ⟨front, back, hcalls, hset, -⟩ := exists_split hi .answered
    have hwon := h.won key
    rw [hcalls] at hwon
    rw [hset]
    by_cases heq : r.key = key
    · simp [Stage.owes, heq] at hwon ⊢
      omega
    · simpa [Stage.owes, heq] using hwon
  · exact all_mem_snoc h.sent (h.sending r (mem_of_getElem? hi))
  · exact fun q hq => h.sending q ((mem_or_eq_of_mem_set hq).resolve_right nofun)
  · exact fun q hq => h.posting q ((mem_or_eq_of_mem_set hq).resolve_right nofun)
  · intro q hq
    obtain hposting | hrest := h.answered q hq
    · exact .inl ((posting_or_of_set hi hposting).resolve_left nofun)
    · exact .inr hrest

theorem Accounted.step {t : System Receivers Stage} {e : Event Empty Unit}
    (hstep : step (relaying c) s e = some t) :
    Accounted c claims relays t := by
  obtain ⟨b, _⟩ | ⟨i, _, l, g, l', hl, hserve⟩ := step_cases hstep
  · exact b.elim
  · cases l with
    | posting r =>
      simp only [relaying, serve] at hserve
      split at hserve
      · next hvalid =>
        split at hserve
        · next hclaimed =>
          cases hserve
          exact h.refused hl (.inr hclaimed)
        · next hfree =>
          cases hserve
          exact h.won_claim hl hvalid hfree
      · next hinvalid =>
        cases hserve
        exact h.refused hl (.inl (by simpa using hinvalid))
    | sending r =>
      cases hserve
      exact h.delivered hl
    | answered => cases hserve

theorem Accounted.ended (hended : ∀ l ∈ s.calls, l = .answered) (hr : r ∈ relays)
    (hvalid : r.frame.accepted c) :
    s.shared.sent.countP (fun q => q.key = r.key) = if r.key ∈ claims then 0 else 1 := by
  have howes : s.calls.countP (Stage.owes r.key) = 0 := by
    rw [countP_eq_zero]
    intro l hl
    simp [hended l hl, Stage.owes]
  have hclaimed : r.key ∈ s.shared.claims := by
    obtain hposting | hinvalid | hclaimed := h.answered r hr
    · cases hended _ hposting
    · rw [hvalid] at hinvalid
      cases hinvalid
    · exact hclaimed
  have hwon := h.won r.key
  rw [howes, Nat.add_zero] at hwon
  rw [hwon]
  by_cases hold : r.key ∈ claims <;> simp [hclaimed, hold]

end

end Counting

section Exact
variable (c : Coding)

def Exact (m : Routed) (recipients : List Recipient) (sent : List Relay) : Prop :=
  ∀ r ∈ recipients, sent.countP (fun q => q.peer = r.peer ∧ q.frame.toIMEI = r.imei ∧
    q.frame.wireB64 = m.wire) = 1

/-- The condition: the route relays, the frames are accepted, the message id has not been
claimed for this sender before, and no two devices of one peer are named. -/
def Apart (claims : List ClaimKey) (tenantID : String) (route : Route) (m : Routed) : Prop :=
  ∀ r ∈ route.recipients, route.open tenantID m = true ∧
    (m.frame r).accepted c = true ∧ (relayOf m r).key ∉ claims ∧
    ∀ r' ∈ route.recipients, r'.peer = r.peer → r'.imei = r.imei

theorem countP_add_le {α : Type*} {p q k : α → Bool} (hp : ∀ a, p a → k a) (hq : ∀ a, q a → k a)
    (hpq : ∀ a, p a → q a = false) (l : List α) : l.countP p + l.countP q ≤ l.countP k := by
  induction l with
  | nil => simp
  | cons a l ih =>
    simp only [countP_cons]
    cases hpa : p a with
    | true =>
      simp [hp a hpa, hpq a hpa]
      omega
    | false =>
      cases hqa : q a with
      | true =>
        simp [hq a hqa]
        omega
      | false =>
        simp
        omega

variable {c} {claims : List ClaimKey} {tenantID : String} {route : Route} {m : Routed}

theorem mem_dispatch_iff {q : Relay} : q ∈ route.dispatch tenantID m ↔
      route.open tenantID m ∧ ∃ r ∈ route.recipients, relayOf m r = q := by
  unfold Route.dispatch
  split <;> next h => simp [h]

/-- Every recipient of a fan-out gets the payload exactly once, in whatever order the relays
are served, if and only if the condition holds. -/
theorem fan_out_exact_iff (c : Coding) (claims : List ClaimKey)
    (tenantID : String) (route : Route) (m : Routed) {s : System Receivers Stage}
    (hrun : Reaches (step (relaying c)) (fun _ _ => True)
      (started claims (route.dispatch tenantID m)) s) (hended : ∀ l ∈ s.calls, l = .answered) :
    Exact m route.recipients s.shared.sent ↔ Apart c claims tenantID route m := by
  have hacc : Accounted c claims (route.dispatch tenantID m) s :=
    hrun.invariant accounted_started fun _ _ _ hs _ hstep => hs.step hstep
  constructor
  · intro hexact r hr
    -- the relay that reached the recipient is its own
    have hsent : ∀ r ∈ route.recipients, relayOf m r ∈ s.shared.sent := by
      intro r hr
      obtain ⟨q, hq, hmatch⟩ := countP_pos_iff.1
        (Nat.lt_of_lt_of_eq Nat.zero_lt_one (hexact r hr).symm)
      obtain ⟨-, r', -, rfl⟩ := mem_dispatch_iff.1 (hacc.sent q hq).1
      have heq : r' = r := by
        cases r'
        simp_all [relayOf, Routed.frame]
      exact heq ▸ hq
    obtain ⟨hmem, hvalid⟩ := hacc.sent _ (hsent r hr)
    have hcount := hacc.ended hended hmem hvalid
    have hfree : (relayOf m r).key ∉ claims := by
      intro hold
      rw [if_pos hold, countP_eq_zero] at hcount
      exact hcount _ (hsent r hr) (by simp)
    refine ⟨(mem_dispatch_iff.1 hmem).1, hvalid, hfree, fun r' hr' hpeer => ?_⟩
    by_contra hne
    -- two devices of one peer would be two sends under one key
    rw [if_neg hfree] at hcount
    have hle := countP_add_le
      (p := fun q : Relay => decide (q = relayOf m r))
      (q := fun q : Relay => decide (q = relayOf m r'))
      (k := fun q : Relay => decide (q.key = (relayOf m r).key))
      (fun q hq => by simp [of_decide_eq_true hq])
      (fun q hq => by simp [of_decide_eq_true hq, Relay.key, relayOf, hpeer, Routed.frame])
      (fun q hq => by
        simp only [decide_eq_false_iff_not, of_decide_eq_true hq]
        intro heq
        exact hne (congrArg (fun q : Relay => q.frame.toIMEI) heq).symm) s.shared.sent
    have hfirst : 0 < s.shared.sent.countP fun q => decide (q = relayOf m r) :=
      countP_pos_iff.2 ⟨_, hsent r hr, by simp⟩
    have hsecond : 0 < s.shared.sent.countP fun q => decide (q = relayOf m r') :=
      countP_pos_iff.2 ⟨_, hsent r' hr', by simp⟩
    omega
  · intro hapart r hr
    obtain ⟨hopen, hvalid, hfree, hone⟩ := hapart r hr
    have hmem : relayOf m r ∈ route.dispatch tenantID m := mem_dispatch_iff.2 ⟨hopen, r, hr, rfl⟩
    have hcount := hacc.ended hended hmem hvalid
    rw [if_neg hfree] at hcount
    rw [← hcount]
    -- under the peer's key there is only the relay to this device
    apply countP_congr
    intro q hq
    obtain ⟨-, r', hr', rfl⟩ := mem_dispatch_iff.1 (hacc.sent q hq).1
    simp only [decide_eq_true_eq]
    constructor
    · rintro ⟨hpeer, himei, -⟩
      simp_all [Relay.key, relayOf, Routed.frame]
    · intro hkey
      have hpeer : r'.peer = r.peer := congrArg ClaimKey.peer hkey
      exact ⟨hpeer, hone r' hr' hpeer, rfl⟩

def threeQuarters : Coding where
  decodedLength s := some (s.toList.length * 3 / 4)
  jsonLength f := f.wireB64.toList.length + 150

def relayed : Routed := ⟨"mo-300234010753370-7", "300234010753370", "AQIDBAUG", "", "00"⟩

/-- Two peers, one device each, one of them named twice. -/
def onePerPeer : Route :=
  ⟨"300234010753370", "p1/300000000000001, p2/300000000000002,p1/300000000000001"⟩

def twoOfOnePeer : Route := ⟨"300234010753370", "p1/300000000000001,p1/300000000000002"⟩

instance (m : Routed) (recipients : List Recipient) (sent : List Relay) :
    Decidable (Exact m recipients sent) :=
  inferInstanceAs (Decidable (∀ r ∈ recipients, _ = 1))

instance (claims : List ClaimKey) (tenantID : String) (route : Route) (m : Routed) :
    Decidable (Apart threeQuarters claims tenantID route m) :=
  inferInstanceAs (Decidable (∀ r ∈ route.recipients, _ ∧ _ ∧ _ ∧ ∀ r' ∈ route.recipients, _ → _))

/-- One device per peer: the claims interleave and everybody gets the payload. -/
theorem fan_out_exact_one_per_peer : ∃ s : System Receivers Stage, s.shared.sent.length = 2 ∧
      Exact relayed onePerPeer.recipients s.shared.sent := by
  obtain ⟨s, -, ⟨hlength, hcalls⟩, hiff⟩ := exists_reaches_and_of_replay
    (P := fun s => s.shared.sent.length = 2 ∧ s.calls = [.answered, .answered, .answered])
    [.act 1 (), .act 0 (), .act 2 (), .act 0 (), .act 1 ()] (by decide +kernel)
    fun _ hs => fan_out_exact_iff threeQuarters [] "acme" onePerPeer relayed hs
  refine ⟨s, hlength, (hiff ?_).2 ?_⟩
  · simp [hcalls]
  · decide +kernel

/-- Of two devices of one peer the second relay is answered as a duplicate of the first. -/
theorem fan_out_drops_device :
    ∃ s : System Receivers Stage, Reaches (step (relaying threeQuarters)) (fun _ _ => True)
        (started [] (twoOfOnePeer.dispatch "acme" relayed)) s ∧
      s.calls = [.answered, .answered] ∧
      s.shared.sent.map (fun r => r.frame.toIMEI) = ["300000000000001"] ∧
      ¬Exact relayed twoOfOnePeer.recipients s.shared.sent := by
  exact exists_reaches_of_decide [.act 0 (), .act 1 (), .act 0 ()] (by decide +kernel)

end Exact

end MeshsatHub.Federation
