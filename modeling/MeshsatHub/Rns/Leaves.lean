import MeshsatHub.Foundations.Tables
import MeshsatHub.Rns.Node

/-!
# Leaf interfaces

A leaf interface is to carry the node's own traffic only. `Node.Guarded` suffices for every way of
relaying but one: a link whose two ends are on one interface is repeated there.
-/

namespace MeshsatHub.Rns
open Rnswire Runs Tables List Function Option

def Sent.Isolated (leaf : String → Bool) (s : Sent) : Prop :=
  match s.origin with
  | .own => True
  | .relayed iface | .announced iface => leaf iface = false ∧ leaf s.iface = false

instance (leaf : String → Bool) (s : Sent) : Decidable (s.Isolated leaf) :=
  match s with
  | ⟨_, _, .own⟩ => isTrue trivial
  | ⟨iface, _, .relayed source⟩ =>
    inferInstanceAs (Decidable (leaf source = false ∧ leaf iface = false))
  | ⟨iface, _, .announced source⟩ =>
    inferInstanceAs (Decidable (leaf source = false ∧ leaf iface = false))

/-- No link or reverse table entry has a leaf at either end, and no announce that waits to be sent
was heard on one. -/
structure Node.Guarded (leaf : String → Bool) (n : Node) : Prop where
  leaf_eq : n.leaf = leaf
  links : ∀ id e, n.linkTable id = some e →
    leaf e.nextHopIface = false ∧ leaf e.receivedIface = false
  reverses : ∀ hash e, n.reverseTable hash = some e →
    leaf e.outboundIface = false ∧ leaf e.receivedIface = false
  announces : ∀ dest e, n.announceTable dest = some e → leaf e.heardOn = false
  helds : ∀ dest e, n.heldAnnounces dest = some e → leaf e.heardOn = false
  queues : ∀ iface, ∀ p ∈ n.announceQueue iface, (Sent.mk iface p.1 p.2).Isolated leaf
  sents : ∀ s ∈ n.sent, s.Isolated leaf

variable {leaf : String → Bool} {w : Wire} {c : Circumstances} {n : Node} {pkt : Packet}

theorem guarded_new (idHash : Bytes) (forwardHeader1From : String → Bool) (ttl : Nat)
    (dests : List Bytes) : (Node.new leaf idHash forwardHeader1From ttl dests).Guarded leaf where
  leaf_eq := rfl
  links := nofun
  reverses := nofun
  announces := nofun
  helds := nofun
  queues := nofun
  sents := nofun

variable {hdr : Header} {ifaces : List String} {origin : Origin} {iface : String} {n' : Node}

theorem outIface_eq_some {e : LinkEntry} {hops : Nat} {out : String}
    (h : e.outIface hops iface = some out) : (out = e.nextHopIface ∨ out = e.receivedIface) ∧
      (iface = e.nextHopIface ∨ iface = e.receivedIface ∨
        e.nextHopIface = e.receivedIface ∧ (hops = e.remainingHops ∨ hops = e.takenHops)) := by
  rw [LinkEntry.outIface] at h
  split at h
  · rename_i hsame
    obtain ⟨hhops, ⟨⟩⟩ := ite_none_right_eq_some.1 h
    exact ⟨.inl rfl, .inr (.inr ⟨hsame, hhops⟩)⟩
  · split at h
    · rename_i hiface
      obtain ⟨-, ⟨⟩⟩ := ite_none_right_eq_some.1 h
      exact ⟨.inr rfl, .inl hiface⟩
    · obtain ⟨hiface, h⟩ := ite_none_right_eq_some.1 h
      obtain ⟨-, ⟨⟩⟩ := ite_none_right_eq_some.1 h
      exact ⟨.inl rfl, .inr (.inl hiface)⟩

/-- A packet with some hops is repeated on the interface of a link that has both its ends
there. -/
def LinkEntry.repeats (e : LinkEntry) (hops : Nat) : Bool :=
  e.validated && e.nextHopIface == e.receivedIface &&
    (hops == e.remainingHops || hops == e.takenHops)

theorem heardAgain_heardOn {e e' : AnnounceEntry} {hops now : Nat}
    (h : e.heardAgain hops now = some e') : e'.heardOn = e.heardOn := by
  rw [AnnounceEntry.heardAgain] at h
  split at h
  · obtain ⟨-, ⟨⟩⟩ := ite_none_left_eq_some.1 h
    rfl
  · obtain ⟨-, ⟨⟩⟩ := ite_none_left_eq_some.1 h
    rfl

theorem rememberHash_linkTable : (n.rememberHash pkt).linkTable = n.linkTable := by
  rw [Node.rememberHash]
  split <;> rfl

/-- No packet comes in on a leaf that would be repeated for a link with both its ends on one
interface. -/
def Node.confined (n : Node) : NodeEvent → Bool
  | .inbound c iface h =>
    !n.leaf iface || !(n.linkTable h.destHash).any fun e =>
      e.repeats (h.countHops c.extraHops).hops.toNat
  | _ => true

theorem countHops_normalize (n : Node) (extra : Nat) (h : Header) :
    ((n.normalize h).countHops extra).destHash = h.destHash ∧
      ((n.normalize h).countHops extra).hops = (h.countHops extra).hops := by
  have hsame : (n.normalize h).destHash = h.destHash ∧ (n.normalize h).hops = h.hops := by
    rw [Node.normalize]
    split <;> exact ⟨rfl, rfl⟩
  rw [Header.countHops, Header.countHops, hsame.2]
  split <;> exact ⟨hsame.1, rfl⟩

namespace Node.Guarded
variable (h : n.Guarded leaf)
include h

theorem transmit (hout : ∀ iface ∈ ifaces, (Sent.mk iface hdr origin).Isolated leaf) :
    (n.transmit ifaces hdr origin).Guarded leaf where
  leaf_eq := h.leaf_eq
  links := h.links
  reverses := h.reverses
  announces := h.announces
  helds := h.helds
  queues := h.queues
  sents := by
    intro s hs
    obtain hs | hs := mem_append.1 hs
    · exact h.sents s hs
    · obtain ⟨iface, hiface, rfl⟩ := mem_map.1 hs
      exact hout iface hiface

theorem transmit_one (hout : (Sent.mk iface hdr origin).Isolated leaf) :
    (n.transmit [iface] hdr origin).Guarded leaf :=
  h.transmit fun _ hiface => mem_singleton.1 hiface ▸ hout

theorem transmit_own (ifaces : List String) (hdr : Header) :
    (n.transmit ifaces hdr .own).Guarded leaf :=
  h.transmit fun _ _ => trivial

theorem not_leaf_of_not_crosses {incoming outgoing : String}
    (hcross : ¬n.crossesLeaf incoming outgoing) :
    leaf incoming = false ∧ leaf outgoing = false := by
  rw [Node.crossesLeaf, h.leaf_eq, Bool.or_eq_true, not_or] at hcross
  exact ⟨Bool.eq_false_iff.2 hcross.1, Bool.eq_false_iff.2 hcross.2⟩

theorem not_leaf_of_mem_withoutLeaves (hmem : iface ∈ n.withoutLeaves ifaces) :
    leaf iface = false := by
  have hnot := (mem_filter.1 hmem).2
  rw [h.leaf_eq] at hnot
  exact Bool.eq_false_iff.2 (by simpa using hnot)

theorem noteForwarded {e : PathEntry} (hin : leaf pkt.iface = false)
    (hout : leaf e.iface = false) (now : Nat) : (n.noteForwarded w e pkt now).Guarded leaf := by
  rw [Node.noteForwarded]
  split
  · split
    · exact h
    · refine { h with links := forall_update h.links ?_ }
      rintro e' ⟨⟩
      exact ⟨hout, hin⟩
  · refine { h with reverses := forall_update h.reverses ?_ }
    rintro e' ⟨⟩
    exact ⟨hout, hin⟩

theorem usePath (e : PathEntry) (dest : Bytes) (now : Nat) : (n.usePath e dest now).Guarded leaf :=
  { h with }

theorem forwardTransport (heq : n.forwardTransport w c pkt = some n') : n'.Guarded leaf := by
  revert heq
  fun_cases n.forwardTransport w c pkt with rintro ⟨⟩
  | case4 e _ hcross =>
    obtain ⟨hin, hout⟩ := h.not_leaf_of_not_crosses hcross
    exact ((h.noteForwarded hin hout c.now).usePath e _ c.now).transmit_one ⟨hin, hout⟩
  | _ => exact h

theorem forwardHeader1 : (n.forwardHeader1 w c pkt).Guarded leaf := by
  rw [Node.forwardHeader1]
  split
  · split
    · exact h
    · split
      · exact h
      · split
        · exact h
        · rename_i hcross
          obtain ⟨hin, hout⟩ := h.not_leaf_of_not_crosses hcross
          exact (h.noteForwarded hin hout c.now).transmit_one ⟨hin, hout⟩
  · exact h

theorem linkTransit (hconfined : leaf pkt.iface → ∀ e, n.linkTable pkt.hdr.destHash = some e →
      e.repeats pkt.hdr.hops.toNat = false)
    (heq : n.linkTransit c pkt = some n') : n'.Guarded leaf := by
  revert heq
  fun_cases n.linkTransit c pkt with rintro ⟨⟩
  | case4 e he hvalidated out hout _ =>
    obtain ⟨hnext, hreceived⟩ := h.links _ e he
    obtain ⟨hwhere, hfrom⟩ := outIface_eq_some hout
    have hleaf : leaf out = false := by
      obtain rfl | rfl := hwhere
      · exact hnext
      · exact hreceived
    have hin : leaf pkt.iface = false := by
      obtain hiface | hiface | ⟨hsame, hhops⟩ := hfrom
      · rw [hiface, hnext]
      · rw [hiface, hreceived]
      · -- both ends are on one interface, and the packet may come from any
        by_contra hnot
        have hrepeats := hconfined (Bool.of_not_eq_false hnot) e he
        rw [LinkEntry.repeats, hvalidated, hsame] at hrepeats
        simp only [BEq.rfl, Bool.and_self, Bool.true_and, Bool.or_eq_false_iff,
          beq_eq_false_iff_ne] at hrepeats
        exact hhops.elim hrepeats.1 hrepeats.2
    apply transmit_one
    · refine { h with links := forall_update h.links ?_ }
      rintro e' ⟨⟩
      exact ⟨hnext, hreceived⟩
    · exact ⟨hin, hleaf⟩
  | _ => exact h

theorem lrProofTransit (heq : n.lrProofTransit w c pkt = some n') : n'.Guarded leaf := by
  revert heq
  fun_cases n.lrProofTransit w c pkt with rintro ⟨⟩
  | case3 e he hmatch =>
    obtain ⟨hnext, hreceived⟩ := h.links _ e he
    apply transmit_one
    · refine { h with links := forall_update h.links ?_ }
      rintro e' ⟨⟩
      exact ⟨hnext, hreceived⟩
    · exact ⟨hmatch.2 ▸ hnext, hreceived⟩
  | _ => exact h

theorem proofTransit : (n.proofTransit pkt).Guarded leaf := by
  rw [Node.proofTransit]
  split
  · exact h
  · rename_i e he
    obtain ⟨hout, hreceived⟩ := h.reverses _ e he
    have herased : ({ n with
        reverseTable := update n.reverseTable pkt.hdr.destHash none } : Node).Guarded
          leaf :=
      { h with reverses := forall_update h.reverses nofun }
    split
    · rename_i hiface
      exact herased.transmit_one ⟨hiface ▸ hout, hreceived⟩
    · exact herased

theorem sendAnnounceOn (hout : (Sent.mk iface hdr origin).Isolated leaf) :
    (n.sendAnnounceOn c hdr origin iface).Guarded leaf := by
  rw [Node.sendAnnounceOn]
  split
  · split
    · exact h.transmit_one hout
    · split
      · exact h
      · refine { h with queues := fun iface' p hp => ?_ }
        change p ∈ update n.announceQueue iface _ iface' at hp
        by_cases heq : iface' = iface
        · subst heq
          rw [update_self] at hp
          obtain hp | hp := mem_append.1 hp
          · exact h.queues _ p hp
          · cases mem_singleton.1 hp
            exact hout
        · rw [update_of_ne heq] at hp
          exact h.queues iface' p hp
  · exact h.transmit_one hout

theorem foldl_sendAnnounceOn (hout : ∀ iface ∈ ifaces, (Sent.mk iface hdr origin).Isolated leaf) :
    (ifaces.foldl (Node.sendAnnounceOn c hdr origin) n).Guarded leaf := by
  induction ifaces generalizing n with
  | nil => exact h
  | cons iface ifaces ih =>
    obtain ⟨hiface, hrest⟩ := forall_mem_cons.1 hout
    exact ih (h.sendAnnounceOn hiface) hrest

theorem flushAnnounceQueue (iface : String) : (n.flushAnnounceQueue iface).Guarded leaf := by
  rw [Node.flushAnnounceQueue]
  split
  · exact h
  · rename_i hdr origin pending hqueue
    have hall := h.queues iface
    rw [hqueue] at hall
    obtain ⟨hfirst, hpending⟩ := forall_mem_cons.1 hall
    apply transmit_one
    · refine { h with queues := fun iface' p hp => ?_ }
      change p ∈ update n.announceQueue iface pending iface' at hp
      by_cases heq : iface' = iface
      · subst heq
        rw [update_self] at hp
        exact hpending p hp
      · rw [update_of_ne heq] at hp
        exact h.queues iface' p hp
    · exact hfirst

theorem announce (dest : Bytes) (iface : String)
    (pathResponse : Bool) : (n.announce c dest iface pathResponse).Guarded leaf := by
  rw [Node.announce]
  split
  · split
    · exact h.sendAnnounceOn trivial
    · exact h
  · exact h.foldl_sendAnnounceOn fun _ _ => trivial

theorem noteRebroadcast : (n.noteRebroadcast c pkt).Guarded leaf := by
  rw [Node.noteRebroadcast]
  split
  · split
    · exact h
    · rename_i e he
      have hheard := h.announces _ e he
      refine { h with announces := forall_update h.announces fun e' he' => ?_ }
      rw [heardAgain_heardOn he', hheard]
  · exact h

theorem learned (hearing : Hearing) (entry : PathEntry) :
    (n.learned w c hearing entry).Guarded leaf := by
  rw [Node.learned]
  split
  · exact { h with }
  · rename_i hleaf
    have hin : leaf hearing.iface = false := by
      rw [← h.leaf_eq]
      exact Bool.eq_false_iff.2 hleaf
    refine transmit ?_ fun iface hiface => ?_
    · split
      · exact { h with }
      · refine { h with announces := forall_update h.announces ?_ }
        rintro e' ⟨⟩
        exact hin
    · exact ⟨hin, h.not_leaf_of_mem_withoutLeaves (mem_of_mem_filter hiface)⟩

theorem handleAnnounce : (n.handleAnnounce w c pkt).Guarded leaf := by
  rw [Node.handleAnnounce]
  split
  · exact h
  · split
    · exact h
    · dsimp only
      split
      · exact h.noteRebroadcast
      · exact h.noteRebroadcast.learned _ _

theorem dueAnnounce (dest : Bytes) : (n.dueAnnounce w c dest).1.Guarded leaf ∧
      ∀ o, (n.dueAnnounce w c dest).2 = some o → leaf o.heardOn = false := by
  rw [Node.dueAnnounce]
  split
  · exact ⟨h, nofun⟩
  · rename_i e he
    have hheard := h.announces _ e he
    split
    · exact ⟨{ h with announces := forall_update h.announces nofun }, nofun⟩
    · split
      · refine ⟨⟨h.leaf_eq, h.links, h.reverses, forall_update h.announces ?_,
          forall_update h.helds nofun, h.queues, h.sents⟩, ?_⟩
        · rintro e' ⟨⟩
          split
          · rename_i held hheld
            exact h.helds _ held hheld
          · exact hheard
        · rintro o ⟨⟩
          exact hheard
      · exact ⟨h, nofun⟩

theorem dueAnnounces (order : List Bytes) : (Node.dueAnnounces w c order n).1.Guarded leaf ∧
      ∀ o ∈ (Node.dueAnnounces w c order n).2, leaf o.heardOn = false := by
  induction order generalizing n with
  | nil => exact ⟨h, nofun⟩
  | cons dest order ih =>
    obtain ⟨hguarded, hdue⟩ := @dueAnnounce _ w c _ h dest
    obtain ⟨hguarded', hmore⟩ := ih hguarded
    refine ⟨hguarded', fun o ho => ?_⟩
    obtain ho | ho := mem_append.1 ho
    · exact hdue o (mem_toList.1 ho)
    · exact hmore o ho

theorem rebroadcast {o : Outgoing} (hheard : leaf o.heardOn = false) :
    (n.rebroadcast c o).Guarded leaf := by
  refine h.foldl_sendAnnounceOn fun iface hiface => ⟨hheard, ?_⟩
  rw [Node.rebroadcastOn] at hiface
  split at hiface
  · split at hiface
    · cases hiface
    · rename_i hopen
      rw [mem_singleton.1 hiface, ← h.leaf_eq]
      simp only [Bool.or_eq_true, not_or, Bool.not_eq_true] at hopen
      exact hopen.1
  · exact h.not_leaf_of_mem_withoutLeaves hiface

theorem processAnnounceTable (order : List Bytes) :
    (n.processAnnounceTable w c order).Guarded leaf := by
  obtain ⟨hguarded, hdue⟩ := @dueAnnounces _ w c _ h order
  have hall : ∀ (outgoing : List Outgoing) (n : Node), n.Guarded leaf →
      (∀ o ∈ outgoing, leaf o.heardOn = false) →
      (outgoing.foldl (Node.rebroadcast c) n).Guarded leaf := by
    intro outgoing
    induction outgoing with
    | nil => exact fun n hn _ => hn
    | cons o outgoing ih =>
      intro n hn houtgoing
      obtain ⟨ho, hrest⟩ := forall_mem_cons.1 houtgoing
      exact ih _ (hn.rebroadcast ho) hrest
  exact hall _ _ hguarded hdue

theorem resolveInflight (dest : Bytes) : (n.resolveInflight dest).Guarded leaf :=
  { h with }

theorem joinDiscovery (dest : Bytes) (iface : String) :
    (n.joinDiscovery c dest iface).Guarded leaf :=
  { h with }

theorem queueResponse {e : PathEntry} (hpath : leaf e.iface = false) (dest : Bytes)
    (iface : String) : (n.queueResponse c e dest iface).Guarded leaf := by
  refine { h with announces := forall_update h.announces ?_, helds := ?_ }
  · rintro e' ⟨⟩
    exact hpath
  · intro dest' e' he'
    rw [Node.queueResponse] at he'
    split at he'
    · rename_i a ha
      split at he'
      · exact h.helds dest' e' he'
      · refine forall_update h.helds ?_ dest' e' he'
        rintro e'' ⟨⟩
        exact h.announces dest a ha
    · exact h.helds dest' e' he'

theorem discover (r : PathRequest) (hin : leaf iface = false) :
    (n.discover w c r iface).Guarded leaf := by
  rw [Node.discover]
  split
  · exact h.joinDiscovery _ _
  · apply transmit
    · exact { h with }
    · intro i hi
      exact ⟨hin, h.not_leaf_of_mem_withoutLeaves (mem_of_mem_filter hi)⟩

theorem answerPathRequest (r : PathRequest) (hin : leaf iface = false) :
    (n.answerPathRequest w c r iface).Guarded leaf := by
  rw [Node.answerPathRequest]
  split
  · exact h.joinDiscovery _ _
  · have hnoted : ({ n with
        inflightPRs := update n.inflightPRs r.dest (some c.now) } : Node).Guarded leaf :=
      { h with }
    dsimp only
    split
    · exact (hnoted.announce _ _ _).resolveInflight _
    · split
      · split
        · exact hnoted.resolveInflight _
        · rename_i hcross
          have hpath := (hnoted.not_leaf_of_not_crosses fun hc => hcross (.inr hc)).2
          exact (hnoted.queueResponse hpath _ _).resolveInflight _
      · exact hnoted.discover r hin

theorem handlePathRequest : (n.handlePathRequest w c pkt).Guarded leaf := by
  rw [Node.handlePathRequest]
  split
  · exact h
  · rename_i r _
    split
    · exact h
    · have htagged : ({ n with prTags := insertHash n.prTags r.unique } : Node).Guarded leaf :=
        { h with }
      dsimp only
      split
      · split
        · exact htagged.announce _ _ _
        · exact htagged
      · rename_i hleaf
        apply htagged.answerPathRequest r
        rw [← h.leaf_eq]
        exact Bool.eq_false_iff.2 hleaf

theorem reply : (n.reply c).Guarded leaf := by
  rw [Node.reply]
  generalize c.replies = replies
  induction replies generalizing n with
  | nil => exact h
  | cons r replies ih => exact ih (h.transmit_own [r.1] r.2)

theorem rememberHash : (n.rememberHash pkt).Guarded leaf := by
  rw [Node.rememberHash]
  split
  · exact { h with }
  · exact h

theorem dispatch : (n.dispatch w c pkt).Guarded leaf := by
  rw [Node.dispatch]
  split
  · exact h.handleAnnounce
  · split
    · exact h
    · split
      · exact h.reply
      · exact h.forwardHeader1
  · split
    · exact h.reply
    · split
      · exact h.handlePathRequest
      · exact h
    · split
      · exact h.reply
      · exact h.forwardHeader1
    · exact h
  · split
    · split
      · rename_i heq
        exact h.lrProofTransit heq
      · exact h.reply
    · split
      · exact h.reply
      · exact h.proofTransit

theorem transit (hconfined : leaf pkt.iface → ∀ e, n.linkTable pkt.hdr.destHash = some e →
      e.repeats pkt.hdr.hops.toNat = false) : (n.transit w c pkt).Guarded leaf := by
  rw [Node.transit]
  split
  · split
    · rename_i heq
      exact h.linkTransit hconfined heq
    · exact h.dispatch
  · exact h.dispatch

theorem inbound {received : Header} (hconfined : n.confined (.inbound c iface received)) :
    (n.inbound w c iface received).Guarded leaf := by
  obtain ⟨hdest, hhops⟩ := countHops_normalize n c.extraHops received
  rw [Node.inbound]
  dsimp only
  split
  · have hpkt : leaf iface → ∀ e, (n.rememberHash ⟨(n.normalize received).countHops c.extraHops,
          w.packetHash (n.normalize received), iface⟩).linkTable
          ((n.normalize received).countHops c.extraHops).destHash = some e →
        e.repeats ((n.normalize received).countHops c.extraHops).hops.toNat = false := by
      intro hleaf e he
      rw [rememberHash_linkTable, hdest] at he
      rw [hhops]
      rw [Node.confined, h.leaf_eq, hleaf, he] at hconfined
      simpa using hconfined
    split
    · split
      · exact h.rememberHash
      · split
        · rename_i heq
          exact h.rememberHash.forwardTransport heq
        · split
          · exact h.rememberHash.transit hpkt
          · exact h.rememberHash
    · exact h.rememberHash.transit hpkt
  · exact h

theorem outbound (hdr : Header) (dest : Bytes)
    (destType : DestType) : (n.outbound c hdr dest destType).Guarded leaf := by
  rw [Node.outbound]
  split
  · exact (h.usePath _ _ _).transmit_own _ _
  · exact h.transmit_own _ _

theorem requestPath (dest tag : Bytes) : (n.requestPath w c dest tag).Guarded leaf := by
  rw [Node.requestPath]
  split
  · exact h
  · exact h.transmit_own _ _

theorem jobs (order : List Bytes) : (n.jobs w c order).Guarded leaf := by
  have hprocessed := @processAnnounceTable _ w c _ h order
  have hexpired : (((n.processAnnounceTable w c order).expireTables c.now).expireDiscovery
      c.now).Guarded leaf :=
    ⟨hprocessed.leaf_eq, forall_filter hprocessed.links _, forall_filter hprocessed.reverses _,
      hprocessed.announces, hprocessed.helds, hprocessed.queues, hprocessed.sents⟩
  have hreplied := @reply _ c _ hexpired
  rw [Node.jobs, Node.rotateSeen]
  split <;> split <;>
    exact { hreplied with }

theorem step {e : NodeEvent} (hconfined : n.confined e)
    (heq : n.step w e = some n') : n'.Guarded leaf := by
  cases e with cases heq
  | inbound c iface hdr => exact h.inbound hconfined
  | announce c dest iface pathResponse => exact h.announce dest iface pathResponse
  | requestPath c dest tag => exact h.requestPath dest tag
  | outbound c hdr dest destType => exact h.outbound hdr dest destType
  | linkPacket iface hdr => exact h.transmit_own _ _
  | flushAnnounceQueue iface => exact h.flushAnnounceQueue iface
  | jobs c order => exact h.jobs order
  | addDestination dest | removeDestination dest | remember dest key => exact { h with }

end Node.Guarded

/-- As long as no packet on a leaf is one that the node repeats for a link with both its ends on
one interface, everything that it transmits is its own or has to do with no leaf. -/
theorem leaves_isolated {leaf : String → Bool} {w : Wire} {idHash : Bytes}
    {forwardHeader1From : String → Bool} {ttl : Nat} {dests : List Bytes} {n : Node}
    (h : Reaches (Node.step w) (fun n e => n.confined e = true)
      (Node.new leaf idHash forwardHeader1From ttl dests) n) : ∀ s ∈ n.sent, s.Isolated leaf :=
  (h.invariant (guarded_new idHash forwardHeader1From ttl dests)
    fun _ _ _ hs hconfined heq => hs.step hconfined heq).sents

/-- Hashes and encodings that need no cryptography. -/
def plainWire : Wire where
  packetHash := fun h => h.destHash ++ h.data
  linkID := fun h => some h.data
  readAnnounce := fun h => some ⟨h.destHash, h.data, [], []⟩
  announcePayload := fun ann => ann.random
  provenBy := fun _ _ => true
  pathRequestDest := [0]

def calm (now : Nat) : Circumstances where
  now
  jitter := 0
  floodable := ["lora", "kit"]
  paidTake := fun _ => []
  paidGate := fun _ _ => true
  extraHops := 0
  hwMTU := fun _ => 500
  capped := fun _ => false
  allowed := fun _ => true
  newAnnounce := fun dest => ⟨false, .single, .announce, 0, [], dest, contextNone, []⟩
  replies := []

/-- The workspace's private network is on the interface `kit`. -/
def kitIsLeaf (iface : String) : Bool := iface == "kit"

def carriesLink : List NodeEvent :=
  [.inbound (calm 1) "lora" ⟨false, .single, .announce, 0, [], [1], contextNone, [7]⟩,
    .inbound (calm 2) "lora" ⟨true, .single, .linkRequest, 0, [9], [1], contextNone, [5]⟩,
    .inbound (calm 3) "lora" ⟨false, .link, .proof, 0, [], [5], contextLRProof, []⟩]

/-- A packet of the link comes in on the leaf with another number of hops; then announces are sent
and asked for. Only the node's own announce goes to the leaf. -/
theorem leaves_isolated_announces :
    ∃ n, Reaches (Node.step plainWire) (fun n e => n.confined e = true)
        (Node.new kitIsLeaf [9] (fun _ => false) 100 [[3]]) n ∧
      (n.sent.filter (·.iface == "kit")).map (·.origin) = [.own] ∧
      (n.sent.filter (·.iface == "lora")).map (·.origin) =
        [.relayed "lora", .relayed "lora", .announced "lora"] ∧
      ∀ s ∈ n.sent, s.Isolated kitIsLeaf := by
  simpa only [and_assoc] using exists_reaches_and_of_decide
    (P := fun n => (n.sent.filter (·.iface == "kit")).map (·.origin) = [.own] ∧
      (n.sent.filter (·.iface == "lora")).map (·.origin) =
        [.relayed "lora", .relayed "lora", .announced "lora"])
    (carriesLink ++
      [.inbound (calm 4) "kit" ⟨false, .link, .data, 4, [], [5], contextNone, [8]⟩,
        .inbound (calm 5) "kit" ⟨false, .plain, .data, 0, [], [0], contextNone,
          [3] ++ List.replicate 15 0 ++ [1]⟩,
        .announce (calm 6) [3] "kit" false, .jobs (calm 7) [[1]]])
    (by decide +kernel) fun _ hreach => leaves_isolated hreach

/-- A packet that comes in on the leaf is repeated on the mesh, for a link with both its ends
there. -/
theorem leaf_packet_repeated : ∃ n, Reaches (Node.step plainWire) (fun _ _ => True)
        (Node.new kitIsLeaf [9] (fun _ => false) 100 []) n ∧
      ¬∀ s ∈ n.sent, s.Isolated kitIsLeaf := by
  have hrun : (replay (Node.step plainWire) (Node.new kitIsLeaf [9] (fun _ => false) 100 [])
      (carriesLink ++
        [.inbound (calm 4) "kit" ⟨false, .link, .data, 0, [], [5], contextNone, [8]⟩])).map
      (fun n => n.sent.getLast?) =
      some (some
        ⟨"lora", ⟨false, .link, .data, 1, [], [5], contextNone, [8]⟩, .relayed "kit"⟩) := by
    decide +kernel
  obtain ⟨n, hreach, hlast⟩ := exists_reaches_of_replay hrun
  refine ⟨n, hreach, fun hall => ?_⟩
  exact absurd (hall _ (mem_of_getLast? hlast)) (by decide +kernel)

end MeshsatHub.Rns
