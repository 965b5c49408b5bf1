import MeshsatHub.Foundations.Runs

/-!
# Replies to out-of-band commands

A `Send` that waits for a reply has a channel in the map of its replica, under the bridge id and the
low sixteen bits of its counter. `HandleInbound` delivers a reply under the bridge id of the pairing
that opens the frame, on its own replica and, over the bus, on the others, any number of times. A
bridge id is unique within a tenant only. A channel is the number of the `Send` that made it.
-/

namespace MeshsatHub.Oob
open Runs List Function Option

/-- A row of the pairings. -/
structure Peer where
  tenantID : String
  bridgeID : String
  deriving DecidableEq

/-- What the arguments of a reply frame say. -/
structure Reply where
  rc : Nat
  body : List UInt8
  counter : Nat
  seq : Nat
  total : Nat
  deriving DecidableEq

/-- A reply together with the pairing under which its frame authenticated. -/
structure Heard where
  peer : Peer
  reply : Reply
  deriving DecidableEq

/-- The first pairing of the listing whose key opens the frame. -/
def authenticate {Wire : Type} (opens : Peer → Wire → Option Reply) (wire : Wire) :
    List Peer → Option Heard
  | [] => none
  | p :: peers =>
    match opens p wire with
    | some r => some ⟨p, r⟩
    | none => authenticate opens wire peers

/-- The key under which a waiter is registered. -/
def pendingKey (bridgeID : String) (counter : Nat) : String × Nat := (bridgeID, counter % 0x10000)

def inOrder (segments : List Heard) : Nat → Option (List Heard)
  | 0 => some []
  | n + 1 =>
    -- The byte that counts the segments never passes a total of 255.
    if n + 1 = 255 then none
    else
      match inOrder segments n, segments.find? fun h => h.reply.seq = n + 1 with
      | some parts, some h => some (parts ++ [h])
      | _, _ => none

def joined (last : Reply) (parts : List Heard) : Reply :=
  { (parts.getLast?.map (·.reply)).getD last with body := parts.flatMap fun p => p.reply.body }

/-- How a `Send` has ended. -/
inductive Sent where
  | waiting
  | failed
  /-- The reply that is returned, and the frames it is made of. -/
  | replied (reply : Reply) (parts : List Heard)
  deriving DecidableEq

/-- A `Send` that has registered its channel. -/
structure Waiter where
  peer : Peer
  replica : Nat
  counter : Nat
  channel : List Heard
  segments : List Heard
  result : Sent

structure Replicas where
  pending : Nat → String × Nat → Option Nat
  sends : List Waiter
  heard : List Heard

/-- The depth of a channel. -/
def replySegments : Nat := 32

def Waiter.push (w : Waiter) (h : Heard) : Waiter :=
  if w.channel.length < replySegments then { w with channel := w.channel ++ [h] } else w

def Waiter.receive (w : Waiter) (h : Heard) (rest : List Heard) : Waiter :=
  if h.reply.total ≤ 1 then { w with channel := rest, result := .replied h.reply [h] }
  else
    let segments := (w.segments.filter fun s => s.reply.seq ≠ h.reply.seq) ++ [h]
    match inOrder segments h.reply.total with
    | some parts =>
      { w with
        channel := rest
        segments := segments
        result := .replied (joined h.reply parts) parts }
    | none => { w with channel := rest, segments := segments }

variable {Wire : Type}

inductive Happening (Wire : Type) where
  /-- A `Send` has sealed its frame and registers its channel. -/
  | register (replica : Nat) (peer : Peer) (counter : Nat)
  /-- A frame comes in; the listing is what the store holds for its peer id. -/
  | inbound (peers : List Peer) (wire : Wire)
  /-- A reply that has been heard is delivered on a replica. -/
  | deliver (replica : Nat) (number : Nat)
  | take (send : Nat)
  /-- The bearer fails, the wait times out or the caller goes away. -/
  | giveUp (send : Nat)
  /-- The deferred deletion of the channel's key. -/
  | cleanUp (send : Nat)

/-- One operation under the lock, or on a channel. -/
def Replicas.step (opens : Peer → Wire → Option Reply) (s : Replicas) :
    Happening Wire → Option Replicas
  | .register replica peer counter =>
    some { s with
      pending := update s.pending replica
        (update (s.pending replica) (pendingKey peer.bridgeID counter)
          (some s.sends.length))
      sends := s.sends ++ [⟨peer, replica, counter, [], [], .waiting⟩] }
  | .inbound peers wire =>
    some { s with heard := s.heard ++ (authenticate opens wire peers).toList }
  | .deliver replica number =>
    s.heard[number]?.bind fun h =>
      match s.pending replica (pendingKey h.peer.bridgeID h.reply.counter) with
      | some n => some { s with sends := s.sends.modify n fun w => w.push h }
      | none => some s
  | .take send =>
    s.sends[send]?.bind fun w =>
      match w.result, w.channel with
      | .waiting, h :: rest => some { s with sends := s.sends.set send (w.receive h rest) }
      | _, _ => none
  | .giveUp send =>
    s.sends[send]?.bind fun w =>
      if w.result = .waiting then
        some { s with sends := s.sends.set send { w with result := .failed } }
      else none
  | .cleanUp send =>
    s.sends[send]?.bind fun w =>
      if w.result = .waiting then none
      else some { s with
        pending := update s.pending w.replica
          (update (s.pending w.replica) (pendingKey w.peer.bridgeID w.counter) none) }

/-- Nothing has been sent. -/
def idle : Replicas := ⟨fun _ _ => none, [], []⟩

/-- The condition on a step: where a reply is delivered, no `Send` of another tenant
waits for a bridge of the same id under the same low counter bits. -/
def unmixed (s : Replicas) : Happening Wire → Bool
  | .deliver replica number =>
    match s.heard[number]? with
    | some h =>
      match (s.pending replica (pendingKey h.peer.bridgeID h.reply.counter)).bind
          fun n => s.sends[n]? with
      | some w => w.peer.tenantID = h.peer.tenantID
      | none => true
    | none => true
  | _ => true

variable {opens : Peer → Wire → Option Reply} {w : Waiter} {h : Heard}

/-- The reply is from a frame that authenticated under the pairing. -/
def Heard.From (opens : Peer → Wire → Option Reply) (peer : Peer) (h : Heard) : Prop :=
  h.peer = peer ∧ ∃ wire, opens peer wire = some h.reply

/-- Everything a `Send` has got is from the pairing it was made for. -/
structure Waiter.Own (opens : Peer → Wire → Option Reply) (w : Waiter) : Prop where
  channel : ∀ h ∈ w.channel, h.From opens w.peer
  segments : ∀ h ∈ w.segments, h.From opens w.peer
  result : ∀ r parts, w.result = .replied r parts → ∀ h ∈ parts, h.From opens w.peer

/-- A key leads to a `Send` for a bridge of that id. -/
structure Replicas.Sound (opens : Peer → Wire → Option Reply) (s : Replicas) : Prop where
  heard : ∀ h ∈ s.heard, h.From opens h.peer
  pending : ∀ replica key n w, s.pending replica key = some n → s.sends[n]? = some w →
    w.peer.bridgeID = key.1
  bounded : ∀ replica key n, s.pending replica key = some n → n < s.sends.length
  own : ∀ w ∈ s.sends, w.Own opens

theorem authenticate_from {wire : Wire} {peers : List Peer}
    (hauth : authenticate opens wire peers = some h) : h.From opens h.peer := by
  induction peers with
  | nil => cases hauth
  | cons p peers ih =>
    unfold authenticate at hauth
    split at hauth
    · next r hr =>
      cases hauth
      exact ⟨rfl, wire, hr⟩
    · exact ih hauth

theorem inOrder_mem {segments parts : List Heard} {total : Nat}
    (h : inOrder segments total = some parts) : ∀ p ∈ parts, p ∈ segments := by
  induction total generalizing parts with
  | zero =>
    cases h
    exact nofun
  | succ n ih =>
    unfold inOrder at h
    split at h
    · cases h
    · split at h
      · next before last hbefore hlast =>
        cases h
        exact all_mem_snoc (ih hbefore) (mem_of_find?_eq_some hlast)
      · cases h

theorem Waiter.Own.push (hw : w.Own opens) (hh : h.From opens w.peer) : (w.push h).Own opens := by
  unfold Waiter.push
  split
  · exact ⟨all_mem_snoc hw.channel hh, hw.segments, hw.result⟩
  · exact hw

theorem Waiter.Own.receive (hw : w.Own opens) {rest : List Heard}
    (hchannel : w.channel = h :: rest) : (w.receive h rest).Own opens := by
  have hh : h.From opens w.peer := hw.channel h (by simp [hchannel])
  have hrest : ∀ p ∈ rest, p.From opens w.peer := fun p hp => hw.channel p (by simp [hchannel, hp])
  have hsegments : ∀ p ∈ (w.segments.filter fun s => s.reply.seq ≠ h.reply.seq) ++ [h],
      p.From opens w.peer :=
    all_mem_snoc (fun p hp => hw.segments p (mem_of_mem_filter hp)) hh
  unfold Waiter.receive
  split
  · refine ⟨hrest, hw.segments, ?_⟩
    rintro r parts ⟨⟩ p hp
    exact mem_singleton.1 hp ▸ hh
  · dsimp only
    split
    · next parts hparts =>
      refine ⟨hrest, hsegments, ?_⟩
      rintro r parts' ⟨⟩ p hp
      exact hsegments p (inOrder_mem hparts p hp)
    · exact ⟨hrest, hsegments, hw.result⟩

theorem Waiter.push_peer (w : Waiter) (h : Heard) : (w.push h).peer = w.peer := by
  unfold Waiter.push
  split <;> rfl

theorem Waiter.receive_peer (w : Waiter) (h : Heard) (rest : List Heard) :
    (w.receive h rest).peer = w.peer := by
  unfold Waiter.receive
  split
  · rfl
  · dsimp only
    split <;> rfl

variable {s t : Replicas}

/-- One `Send` goes on, for the same pairing and with what is its own. -/
theorem Replicas.Sound.set (h : s.Sound opens) {n : Nat} {w' : Waiter} (hw : s.sends[n]? = some w)
    (hpeer : w'.peer = w.peer) (hown : w'.Own opens) :
    Sound opens { s with sends := s.sends.set n w' } := by
  refine ⟨h.heard, ?_, ?_, ?_⟩
  · intro replica key m v hm hv
    obtain ⟨u, hu, hpeers⟩ : ∃ u, s.sends[m]? = some u ∧ v.peer = u.peer := by
      rw [getElem?_set] at hv
      split at hv
      · next heq =>
        split at hv
        · cases hv
          exact ⟨w, heq ▸ hw, hpeer⟩
        · cases hv
      · exact ⟨v, hv, rfl⟩
    rw [hpeers]
    exact h.pending replica key m u hm hu
  · intro replica key m hm
    simpa using h.bounded replica key m hm
  · exact all_mem_set h.own hown

theorem Replicas.Sound.register (h : s.Sound opens) (replica : Nat) (peer : Peer) (counter : Nat) :
    Sound opens { s with
      pending := update s.pending replica
        (update (s.pending replica) (pendingKey peer.bridgeID counter)
          (some s.sends.length))
      sends := s.sends ++ [⟨peer, replica, counter, [], [], .waiting⟩] } := by
  -- a key leads to the new `Send` or where it led before
  have hcases : ∀ r key n, update s.pending replica
      (update (s.pending replica) (pendingKey peer.bridgeID counter)
        (some s.sends.length)) r key = some n →
      (key.1 = peer.bridgeID ∧ n = s.sends.length) ∨ s.pending r key = some n := by
    intro r key n hn
    by_cases hr : r = replica
    · subst hr
      by_cases hkey : key = pendingKey peer.bridgeID counter
      · subst hkey
        exact .inl ⟨rfl, by simpa using hn.symm⟩
      · exact .inr (by simpa [hkey] using hn)
    · exact .inr (by simpa [hr] using hn)
  refine ⟨h.heard, ?_, ?_, ?_⟩
  · intro r key n w hn hw
    obtain ⟨hkey, rfl⟩ | hold := hcases r key n hn
    · rw [getElem?_append_right (Nat.le_refl _), Nat.sub_self] at hw
      cases hw
      exact hkey.symm
    · rw [getElem?_append_left (h.bounded r key n hold)] at hw
      exact h.pending r key n w hold hw
  · intro r key n hn
    rw [length_append]
    obtain ⟨-, rfl⟩ | hold := hcases r key n hn
    · exact Nat.lt_succ_self _
    · exact Nat.lt_succ_of_lt (h.bounded r key n hold)
  · exact all_mem_snoc h.own ⟨nofun, nofun, nofun⟩

theorem Replicas.Sound.forget (h : s.Sound opens) {pending : Nat → String × Nat → Option Nat}
    (hold : ∀ r key n, pending r key = some n → s.pending r key = some n) :
    Sound opens { s with pending := pending } where
  heard := h.heard
  pending := fun r key n w hn => h.pending r key n w (hold r key n hn)
  bounded := fun r key n hn => h.bounded r key n (hold r key n hn)
  own := h.own

/-- A step that meets the condition gives every `Send` only what is its own. -/
theorem Replicas.Sound.step (h : s.Sound opens)
    {e : Happening Wire} (hok : unmixed s e) (hstep : s.step opens e = some t) : t.Sound opens := by
  cases e with
  | register replica peer counter =>
    cases hstep
    exact h.register replica peer counter
  | inbound peers wire =>
    cases hstep
    refine ⟨fun heard hmem => ?_, h.pending, h.bounded, h.own⟩
    obtain hmem | hmem := mem_append.1 hmem
    · exact h.heard heard hmem
    · exact authenticate_from (mem_toList.1 hmem)
  | deliver replica number =>
    obtain ⟨heard, hheard, hstep⟩ := bind_eq_some_iff.1 hstep
    split at hstep
    · next n hn =>
      cases hstep
      obtain ⟨w, hw⟩ : ∃ w, s.sends[n]? = some w := ⟨_, getElem?_eq_getElem (h.bounded _ _ _ hn)⟩
      have htenant : w.peer.tenantID = heard.peer.tenantID := by
        simpa [unmixed, hheard, hn, hw] using hok
      have hbridge : w.peer.bridgeID = heard.peer.bridgeID := h.pending _ _ _ _ hn hw
      have hpeer : heard.peer = w.peer := by
        cases hq : w.peer
        simp_all
      have hown := h.own w (mem_of_getElem? hw)
      have hfrom := h.heard heard (mem_of_getElem? hheard)
      rw [hpeer] at hfrom
      have hset : s.sends.modify n (fun w => w.push heard) = s.sends.set n (w.push heard) := by
        rw [modify_eq_set_getElem?, hw]
        rfl
      rw [hset]
      exact h.set hw (w.push_peer heard) (hown.push hfrom)
    · cases hstep
      exact h
  | take send =>
    obtain ⟨w, hw, hstep⟩ := bind_eq_some_iff.1 hstep
    split at hstep
    · next hd rest _ hchannel =>
      cases hstep
      exact h.set hw (w.receive_peer hd rest) ((h.own w (mem_of_getElem? hw)).receive hchannel)
    · cases hstep
  | giveUp send =>
    obtain ⟨w, hw, hstep⟩ := bind_eq_some_iff.1 hstep
    split at hstep
    · cases hstep
      have hown := h.own w (mem_of_getElem? hw)
      exact h.set hw rfl ⟨hown.channel, hown.segments, nofun⟩
    · cases hstep
  | cleanUp send =>
    obtain ⟨w, -, hstep⟩ := bind_eq_some_iff.1 hstep
    split at hstep
    · cases hstep
    · cases hstep
      refine h.forget fun r key n hn => ?_
      by_cases hr : r = w.replica
      · subst hr
        by_cases hkey : key = pendingKey w.peer.bridgeID w.counter
        · simp [hkey] at hn
        · simpa [hkey] using hn
      · simpa [hr] using hn

/-- In every run whose steps meet the condition, the reply a `Send` returns is made of
frames that authenticated under the pairing of its own tenant and bridge. -/
theorem replies_of_own_bridge (opens : Peer → Wire → Option Reply)
    (h : Reaches (Replicas.step opens) (fun s e => unmixed s e = true) idle s) :
    ∀ w ∈ s.sends, ∀ r parts, w.result = .replied r parts → ∀ p ∈ parts, p.peer = w.peer ∧
      ∃ wire, opens w.peer wire = some p.reply := by
  have hsound : s.Sound opens :=
    h.invariant ⟨nofun, nofun, nofun, nofun⟩ fun _ _ _ hs hok hstep => hs.step hok hstep
  exact fun w hw => (hsound.own w hw).result

/-- Two tenants with a bridge of the same id. -/
def acmeBridge : Peer := ⟨"acme", "kit-1"⟩

def betaBridge : Peer := ⟨"beta", "kit-1"⟩

def opensOwn (p : Peer) (wire : Peer) : Option Reply :=
  if p = wire then some ⟨0, wire.tenantID.toUTF8.data.toList, 1, 1, 1⟩ else none

/-- Each tenant's first command, on replicas of its own, and both replies. -/
theorem replies_of_own_bridge_apart : ∃ s : Replicas, s.sends.map (fun w => (w.peer, w.result)) =
        [(acmeBridge, .replied ⟨0, "acme".toUTF8.data.toList, 1, 1, 1⟩
            [⟨acmeBridge, ⟨0, "acme".toUTF8.data.toList, 1, 1, 1⟩⟩]),
          (betaBridge, .replied ⟨0, "beta".toUTF8.data.toList, 1, 1, 1⟩
            [⟨betaBridge, ⟨0, "beta".toUTF8.data.toList, 1, 1, 1⟩⟩])] ∧
      ∀ w ∈ s.sends, ∀ r parts, w.result = .replied r parts → ∀ p ∈ parts, p.peer = w.peer ∧
        ∃ wire, opensOwn w.peer wire = some p.reply := by
  exact (exists_reaches_and_of_decide [.register 0 acmeBridge 1, .register 1 betaBridge 1,
     .inbound [acmeBridge, betaBridge] betaBridge,
      .deliver 1 0, .inbound [acmeBridge, betaBridge] acmeBridge, .deliver 0 1, .take 0, .take 1]
    (by decide +kernel) fun _ hs => replies_of_own_bridge opensOwn hs).imp fun _ h => h.2

/-- The reply of one tenant's kit is returned to the other tenant's command. -/
theorem reply_of_another_tenant :
    ∃ s : Replicas, Reaches (Replicas.step opensOwn) (fun _ _ => True) idle s ∧
      s.sends.map (fun w => (w.peer, w.result)) =
        [(acmeBridge, .replied ⟨0, "beta".toUTF8.data.toList, 1, 1, 1⟩
          [⟨betaBridge, ⟨0, "beta".toUTF8.data.toList, 1, 1, 1⟩⟩])] ∧
      acmeBridge.tenantID ≠ betaBridge.tenantID := by
  exact exists_reaches_of_decide
    [.register 0 acmeBridge 1, .inbound [acmeBridge, betaBridge] betaBridge, .deliver 0 0, .take 0]
    (by decide +kernel)

end MeshsatHub.Oob
