import MeshsatHub.Rns.Links
import MeshsatHub.Rns.Paths

/-!
# A transport node

What is decided outside of the node at a step is in `Circumstances`. A step is a whole call, and the
set of leaf interfaces does not change.
-/

namespace MeshsatHub.Rns
open Rnswire Function

inductive PacketType where
  | data
  | announce
  | linkRequest
  | proof
  deriving DecidableEq

inductive DestType where
  | single
  | group
  | plain
  | link
  deriving DecidableEq

def contextNone : UInt8 := 0x00
def contextResource : UInt8 := 0x01
def contextResourceReq : UInt8 := 0x03
def contextResourcePRF : UInt8 := 0x05
def contextCacheRequest : UInt8 := 0x08
def contextPathResponse : UInt8 := 0x0B
def contextChannel : UInt8 := 0x0E
def contextKeepalive : UInt8 := 0xFA
def contextLRProof : UInt8 := 0xFF

def truncatedHashLen : Nat := 16

/-- How often an announce is sent again. -/
def pathfinderR : Nat := 1

def localRebroadcastsMax : Nat := 2

def second : Nat := 10 ^ 9

def reverseTimeout : Nat := 8 * 60 * second

def linkTimeout : Nat := 2 * 60 * 60 * second

def perHopTimeout : Nat := 6 * second

def pathRequestTimeout : Nat := 15 * second

/-- How many announces wait for an interface. -/
def maxPendingAnnounces : Nat := 16

structure Header where
  headerType2 : Bool
  destType : DestType
  packetType : PacketType
  hops : UInt8
  /-- The next hop, in a packet in transport. -/
  transportID : Bytes
  destHash : Bytes
  context : UInt8
  data : Bytes
  deriving DecidableEq

structure Packet where
  hdr : Header
  /-- The packet hash, which does not depend on the hops. -/
  hash : Bytes
  iface : String

inductive Origin where
  | own
  | relayed (iface : String)
  | announced (iface : String)
  deriving DecidableEq

structure Sent where
  iface : String
  hdr : Header
  origin : Origin
  deriving DecidableEq

/-- Hashes, signatures and the encoding of announces. -/
structure Wire where
  packetHash : Header → Bytes
  /-- `LinkIDFromRequestPacket`. -/
  linkID : Header → Option Bytes
  /-- The announce of a packet, if it can be read and its signature holds. -/
  readAnnounce : Header → Option Announce
  announcePayload : Announce → Bytes
  /-- Whether a link proof is signed by the identity with a public key. -/
  provenBy : Header → Bytes → Bool
  pathRequestDest : Bytes

/-- What a step depends on besides the node and the packet. -/
structure Circumstances where
  now : Nat
  jitter : Nat
  floodable : List String
  /-- The paid interfaces that a destination may cross now. -/
  paidTake : Bytes → List String
  paidGate : String → Bytes → Bool
  extraHops : Nat
  hwMTU : String → Int
  /-- The interfaces with a bit rate, on which announces are capped. -/
  capped : String → Bool
  /-- The capped interfaces that may carry an announce now. -/
  allowed : String → Bool
  /-- A new announce of a local destination. -/
  newAnnounce : Bytes → Header
  /-- What the node's own links and destinations send in answer. -/
  replies : List (String × Header)

structure AnnounceEntry where
  timestamp : Nat
  retransmitTimeout : Nat
  retries : Nat
  receivedFrom : Bytes
  hops : Nat
  ann : Announce
  sourceIface : String
  localRebroadcasts : Nat
  /-- Sent as a path response on the attached interface. -/
  blockRebroadcasts : Bool
  attachedIface : String
  /-- The interface on which the announce was heard, for the origin of its transmissions. -/
  heardOn : String

structure LinkEntry where
  timestamp : Nat
  nextHop : Bytes
  nextHopIface : String
  remainingHops : Nat
  receivedIface : String
  takenHops : Nat
  destHash : Bytes
  validated : Bool
  proofTimeout : Nat

/-- A packet that was forwarded and whose proof must travel back. -/
structure ReverseEntry where
  receivedIface : String
  outboundIface : String
  timestamp : Nat

/-- A path request that is being searched for. -/
structure DiscoveryEntry where
  timeout : Nat
  requestingIfaces : List String
  engaged : Bool

/-- Packets are received on named interfaces and relayed; every transmission is kept with its
origin. -/
structure Node where
  leaf : String → Bool
  idHash : Bytes
  forwardHeader1From : String → Bool
  ttl : Nat
  dests : List Bytes
  paths : Bytes → Option PathEntry
  /-- The public keys of the destinations that were heard of. -/
  identities : Bytes → Option Bytes
  hashlist : List Bytes
  hashlistPrev : List Bytes
  announceTable : Bytes → Option AnnounceEntry
  heldAnnounces : Bytes → Option AnnounceEntry
  /-- The announces that wait for a capped interface. -/
  announceQueue : String → List (Header × Origin)
  linkTable : Bytes → Option LinkEntry
  reverseTable : Bytes → Option ReverseEntry
  discoveryPRs : Bytes → Option DiscoveryEntry
  prTags : List Bytes
  prTagsPrev : List Bytes
  inflightPRs : Bytes → Option Nat
  sent : List Sent

/-- A node before any traffic. -/
def Node.new (leaf : String → Bool) (idHash : Bytes) (forwardHeader1From : String → Bool)
    (ttl : Nat) (dests : List Bytes) : Node where
  leaf
  idHash
  forwardHeader1From
  ttl
  dests
  paths := fun _ => none
  identities := fun _ => none
  hashlist := []
  hashlistPrev := []
  announceTable := fun _ => none
  heldAnnounces := fun _ => none
  announceQueue := fun _ => []
  linkTable := fun _ => none
  reverseTable := fun _ => none
  discoveryPRs := fun _ => none
  prTags := []
  prTagsPrev := []
  inflightPRs := fun _ => none
  sent := []

/-- Transmit a packet on some interfaces. -/
def Node.transmit (n : Node) (ifaces : List String) (hdr : Header) (origin : Origin) : Node :=
  { n with sent := n.sent ++ ifaces.map fun iface => { iface, hdr, origin } }

/-- Whether relaying would carry traffic into or out of a leaf. -/
def Node.crossesLeaf (n : Node) (incoming outgoing : String) : Bool :=
  n.leaf incoming || n.leaf outgoing

def Node.withoutLeaves (n : Node) (ifaces : List String) : List String :=
  ifaces.filter fun iface => !n.leaf iface

def Header.rewriteForTransport (h : Header) (transportID : Bytes) : Header :=
  { h with headerType2 := true, transportID }

def Header.stripTransport (h : Header) : Header :=
  { h with headerType2 := false, transportID := [] }

def Packet.truncatedHash (pkt : Packet) : Bytes := pkt.hash.take truncatedHashLen

def signallingBytes (mtu mode : Nat) : Bytes :=
  let v := mtu % 2 ^ 21 + mode * 2 ^ 5 % 2 ^ 8 * 2 ^ 16
  [UInt8.ofNat (v / 2 ^ 16), UInt8.ofNat (v / 2 ^ 8), UInt8.ofNat v]

/-- The data of a forwarded link request: the signalled MTU is bounded by those of both
interfaces, and left out where that of the next one is unknown. -/
def clampMTU (nextMTU previousMTU : Int) (data : Bytes) : Bytes :=
  if data.length = linkECPubSize + linkMTUSize then
    let (pathMTU, mode) := parseSignalling (data.drop linkECPubSize)
    if nextMTU = 0 then data.take linkECPubSize
    else
      let m : Int := if nextMTU < pathMTU then nextMTU else pathMTU
      let m : Int := if 0 < previousMTU ∧ previousMTU < m then previousMTU else m
      if m ≠ pathMTU then data.take linkECPubSize ++ signallingBytes m.toNat mode else data
  else data

def PathEntry.linkEntry (e : PathEntry) (pkt : Packet) (now : Nat) : LinkEntry where
  timestamp := now
  nextHop := e.nextHop
  nextHopIface := e.iface
  remainingHops := e.hops
  receivedIface := pkt.iface
  takenHops := pkt.hdr.hops.toNat
  destHash := pkt.hdr.destHash
  validated := false
  proofTimeout := now + perHopTimeout * max 1 e.hops

def PathEntry.reverseEntry (e : PathEntry) (pkt : Packet) (now : Nat) : ReverseEntry where
  receivedIface := pkt.iface
  outboundIface := e.iface
  timestamp := now

variable (w : Wire)

def Node.noteForwarded (n : Node) (e : PathEntry) (pkt : Packet) (now : Nat) : Node :=
  match pkt.hdr.packetType with
  | .linkRequest =>
    match w.linkID pkt.hdr with
    | none => n
    | some id => { n with linkTable := update n.linkTable id (some (e.linkEntry pkt now)) }
  | _ =>
    { n with
      reverseTable := update n.reverseTable pkt.truncatedHash
        (some (e.reverseEntry pkt now)) }

def Node.usePath (n : Node) (e : PathEntry) (dest : Bytes) (now : Nat) : Node :=
  { n with paths := update n.paths dest (some { e with timestamp := now }) }

variable (c : Circumstances) (n : Node) (pkt : Packet)

def Node.forwardTransport : Option Node :=
  match n.paths pkt.hdr.destHash with
  | none => none
  | some e =>
    if n.crossesLeaf pkt.iface e.iface then some n
    else
      let out :=
        if e.direct then pkt.hdr.stripTransport else pkt.hdr.rewriteForTransport e.nextHop
      let out :=
        if pkt.hdr.packetType = .linkRequest then
          { out with data := clampMTU (c.hwMTU e.iface) (c.hwMTU pkt.iface) pkt.hdr.data }
        else out
      if pkt.hdr.packetType = .linkRequest ∧ w.linkID pkt.hdr = none then some n
      else
        some (((n.noteForwarded w e pkt c.now).usePath e pkt.hdr.destHash c.now).transmit
          [e.iface] out (.relayed pkt.iface))

def Node.forwardHeader1 : Node :=
  if n.forwardHeader1From pkt.iface then
    match n.paths pkt.hdr.destHash with
    | none => n
    | some e =>
      if e.iface = pkt.iface then n
      else if n.crossesLeaf pkt.iface e.iface then n
      else
        let out := if e.direct then pkt.hdr else pkt.hdr.rewriteForTransport e.nextHop
        (n.noteForwarded w e pkt c.now).transmit [e.iface] out (.relayed pkt.iface)
  else n

/-- The interface on which a packet of a link goes on. -/
def LinkEntry.outIface (e : LinkEntry) (hops : Nat) (iface : String) : Option String :=
  if e.nextHopIface = e.receivedIface then
    if hops = e.remainingHops ∨ hops = e.takenHops then some e.nextHopIface else none
  else if iface = e.nextHopIface then
    if hops = e.remainingHops then some e.receivedIface else none
  else if iface = e.receivedIface then
    if hops = e.takenHops then some e.nextHopIface else none
  else none

def insertHash (hashes : List Bytes) (hash : Bytes) : List Bytes :=
  if hashes.contains hash then hashes else hash :: hashes

def Node.linkTransit : Option Node :=
  match n.linkTable pkt.hdr.destHash with
  | none => none
  | some e =>
    if e.validated then
      match e.outIface pkt.hdr.hops.toNat pkt.iface with
      | none => some n
      | some out =>
        if out = "" then some n
        else
          some (({ n with
            hashlist := insertHash n.hashlist pkt.hash
            linkTable := update n.linkTable pkt.hdr.destHash
              (some { e with timestamp := c.now }) } : Node).transmit [out] pkt.hdr
              (.relayed pkt.iface))
    else some n

def Node.lrProofTransit : Option Node :=
  match n.linkTable pkt.hdr.destHash with
  | none => none
  | some e =>
    if pkt.hdr.hops.toNat = e.remainingHops ∧ pkt.iface = e.nextHopIface then
      match n.identities e.destHash with
      | none => some n
      | some key =>
        if w.provenBy pkt.hdr key then
          some (({ n with
            linkTable := update n.linkTable pkt.hdr.destHash
              (some { e with validated := true, timestamp := c.now }) } : Node).transmit
              [e.receivedIface] pkt.hdr (.relayed pkt.iface))
        else some n
    else some n

def Node.proofTransit : Node :=
  match n.reverseTable pkt.hdr.destHash with
  | none => n
  | some e =>
    let n : Node := { n with reverseTable := update n.reverseTable pkt.hdr.destHash none }
    if pkt.iface = e.outboundIface then
      n.transmit [e.receivedIface] pkt.hdr (.relayed pkt.iface)
    else n

def Node.transportAnnounce (ann : Announce) (hops : Nat) (context : UInt8) : Header where
  headerType2 := true
  destType := .single
  packetType := .announce
  hops := UInt8.ofNat hops
  transportID := n.idHash
  destHash := ann.destHash
  context
  data := w.announcePayload ann

/-- Send an announce on an interface, or let it wait there for its share of the bit rate. -/
def Node.sendAnnounceOn (hdr : Header) (origin : Origin) (n : Node) (iface : String) : Node :=
  if c.capped iface then
    if n.announceQueue iface = [] ∧ c.allowed iface then n.transmit [iface] hdr origin
    else if maxPendingAnnounces ≤ (n.announceQueue iface).length then n
    else
      { n with
        announceQueue := update n.announceQueue iface
          (n.announceQueue iface ++ [(hdr, origin)]) }
  else n.transmit [iface] hdr origin

/-- The next announce that waits for an interface is sent. -/
def Node.flushAnnounceQueue (iface : String) : Node :=
  match n.announceQueue iface with
  | [] => n
  | (hdr, origin) :: pending =>
    ({ n with announceQueue := update n.announceQueue iface pending } : Node).transmit
      [iface] hdr origin

variable (dest : Bytes)

/-- Announce a local destination, on one interface or wherever announces may go. -/
def Node.announce (iface : String) (pathResponse : Bool) : Node :=
  let hdr :=
    if pathResponse then { c.newAnnounce dest with context := contextPathResponse }
    else c.newAnnounce dest
  if iface ≠ "" then
    if c.paidGate iface dest then n.sendAnnounceOn c hdr .own iface else n
  else (c.floodable ++ c.paidTake dest).foldl (Node.sendAnnounceOn c hdr .own) n

def Packet.hearing (ann : Announce) : Hearing where
  ann := { ann with destHash := pkt.hdr.destHash }
  transportID := if pkt.hdr.headerType2 then some pkt.hdr.transportID else none
  hops := pkt.hdr.hops.toNat
  iface := pkt.iface
  packetHash := pkt.hash
  pathResponse := pkt.hdr.context == contextPathResponse

/-- What becomes of an announce that waits to be sent again when another node sends it. -/
def AnnounceEntry.heardAgain (e : AnnounceEntry) (hops now : Nat) : Option AnnounceEntry :=
  if hops = e.hops + 1 then
    if 0 < e.retries ∧ localRebroadcastsMax ≤ e.localRebroadcasts + 1 then none
    else some { e with localRebroadcasts := e.localRebroadcasts + 1 }
  else if hops = e.hops + 2 ∧ 0 < e.retries ∧ now < e.retransmitTimeout then none
  else some e

/-- Another node may have sent an announce that is held for retransmission. -/
def Node.noteRebroadcast : Node :=
  if pkt.hdr.headerType2 && !n.leaf pkt.iface then
    match n.announceTable pkt.hdr.destHash with
    | none => n
    | some e =>
      { n with
        announceTable := update n.announceTable pkt.hdr.destHash
          (e.heardAgain pkt.hdr.hops.toNat c.now) }
  else n

def Hearing.announceEntry (h : Hearing) (c : Circumstances) : AnnounceEntry where
  timestamp := c.now
  retransmitTimeout := c.now + c.jitter
  retries := 0
  receivedFrom := h.transportID.getD h.ann.destHash
  hops := h.hops
  ann := h.ann
  sourceIface := h.iface
  localRebroadcasts := 0
  blockRebroadcasts := false
  attachedIface := ""
  heardOn := h.iface

def Node.waiting : List String :=
  match n.discoveryPRs dest with
  | none => []
  | some d => d.requestingIfaces

/-- Keep what an announce has taught, and answer those who asked for it. -/
def Node.learned (h : Hearing) (entry : PathEntry) : Node :=
  let dest := h.ann.destHash
  let known : Node :=
    { n with
      paths := update n.paths dest (some entry)
      identities := update n.identities dest (some h.ann.publicKey)
      inflightPRs := update n.inflightPRs dest none }
  if n.leaf h.iface then known
  else
    let queued : Node :=
      if h.pathResponse then known
      else
        { known with
          announceTable := update n.announceTable dest (some (h.announceEntry c)) }
    let answerOn := (n.withoutLeaves (n.waiting dest)).filter (c.paidGate · dest)
    ({ queued with discoveryPRs := update n.discoveryPRs dest none } : Node).transmit
      answerOn (n.transportAnnounce w h.ann h.hops contextPathResponse) (.announced h.iface)

def Node.handleAnnounce : Node :=
  match w.readAnnounce pkt.hdr with
  | none => n
  | some ann =>
    if n.dests.contains pkt.hdr.destHash then n
    else
      let h := pkt.hearing ann
      let n := n.noteRebroadcast c pkt
      match learn n.leaf n.ttl (n.paths h.ann.destHash) h c.now with
      | none => n
      | some entry => n.learned w c h entry

/-- An announce that has come due. -/
structure Outgoing where
  hdr : Header
  dest : Bytes
  source : String
  attachedIface : String
  heardOn : String

namespace Node

def dueAnnounce : Node × Option Outgoing :=
  match n.announceTable dest with
  | none => (n, none)
  | some e =>
    if 0 < e.retries ∧ localRebroadcastsMax ≤ e.retries ∨ pathfinderR < e.retries then
      ({ n with announceTable := update n.announceTable dest none }, none)
    else if e.retransmitTimeout < c.now then
      let next :=
        match n.heldAnnounces dest with
        | some held => held
        | none =>
          { e with
            retransmitTimeout := c.now + 11 * second / 2
            retries := e.retries + 1 }
      ({ n with
          heldAnnounces := update n.heldAnnounces dest none
          announceTable := update n.announceTable dest (some next) },
        some
          { hdr := n.transportAnnounce w e.ann e.hops
              (if e.blockRebroadcasts then contextPathResponse else contextNone)
            dest
            source := e.sourceIface
            attachedIface := e.attachedIface
            heardOn := e.heardOn })
    else (n, none)

def dueAnnounces (w : Wire) (c : Circumstances) : List Bytes → Node → Node × List Outgoing
  | [], n => (n, [])
  | dest :: order, n =>
    let (n, due) := n.dueAnnounce w c dest
    let (n, more) := dueAnnounces w c order n
    (n, due.toList ++ more)

/-- The interfaces on which an announce is sent again: the one it is attached to, or all that may
carry announces. -/
def rebroadcastOn (o : Outgoing) : List String :=
  if o.attachedIface ≠ "" then
    if n.leaf o.attachedIface || !c.paidGate o.attachedIface o.dest then [] else [o.attachedIface]
  else n.withoutLeaves (c.floodable ++ (c.paidTake o.dest).filter (· ≠ o.source))

def rebroadcast (o : Outgoing) : Node :=
  (n.rebroadcastOn c o).foldl (sendAnnounceOn c o.hdr (.announced o.heardOn)) n

def processAnnounceTable (order : List Bytes) (n : Node) : Node :=
  let (n, outgoing) := dueAnnounces w c order n
  outgoing.foldl (rebroadcast c) n

end Node

structure PathRequest where
  dest : Bytes
  requestor : Option Bytes
  tag : Bytes

def parsePathRequest (data : Bytes) : Option PathRequest :=
  if 2 * truncatedHashLen < data.length then
    some
      { dest := data.take truncatedHashLen
        requestor := some ((data.drop truncatedHashLen).take truncatedHashLen)
        tag := (data.drop (2 * truncatedHashLen)).take truncatedHashLen }
  else if truncatedHashLen < data.length then
    some
      { dest := data.take truncatedHashLen
        requestor := none
        tag := (data.drop truncatedHashLen).take truncatedHashLen }
  else none

variable (r : PathRequest)

/-- A tag in an array of its full size. -/
def PathRequest.tag16 : Bytes :=
  (r.tag ++ List.replicate truncatedHashLen 0).take truncatedHashLen

def PathRequest.unique : Bytes := r.dest ++ r.tag16

def Node.pathRequest (dest tag : Bytes) : Header where
  headerType2 := false
  destType := .plain
  packetType := .data
  hops := 0
  transportID := []
  destHash := w.pathRequestDest
  context := contextNone
  data := dest ++ n.idHash ++ tag

def addIface (ifaces : List String) (iface : String) : List String :=
  if ifaces.contains iface then ifaces else ifaces ++ [iface]

def Node.resolveInflight : Node :=
  { n with inflightPRs := update n.inflightPRs dest none }

variable (iface : String)

def Node.joinDiscovery : Node :=
  let d := (n.discoveryPRs dest).getD
    { timeout := c.now + pathRequestTimeout, requestingIfaces := [], engaged := false }
  { n with
    discoveryPRs := update n.discoveryPRs dest
      (some { d with requestingIfaces := addIface d.requestingIfaces iface }) }

/-- The announce of a known path is queued as the answer; one that waits to be sent again is put
aside. -/
def Node.queueResponse (e : PathEntry) (dest : Bytes) (iface : String) : Node :=
  let held :=
    match n.announceTable dest with
    | some a =>
      if a.blockRebroadcasts then n.heldAnnounces
      else update n.heldAnnounces dest (some a)
    | none => n.heldAnnounces
  { n with
    heldAnnounces := held
    announceTable := update n.announceTable dest
      (some
        { timestamp := c.now
          retransmitTimeout := c.now + 2 * second / 5
          retries := pathfinderR
          receivedFrom := e.nextHop
          hops := e.hops
          ann := e.announce
          sourceIface := ""
          localRebroadcasts := 0
          blockRebroadcasts := true
          attachedIface := iface
          heardOn := e.iface }) }

/-- Search for a destination on the other interfaces. -/
def Node.discover : Node :=
  match n.discoveryPRs r.dest with
  | some ⟨_, _, true⟩ => n.joinDiscovery c r.dest iface
  | found =>
    let asking := (found.map (·.requestingIfaces)).getD []
    let searched :=
      (n.withoutLeaves (c.floodable ++ (c.paidTake r.dest).filter (· ≠ iface))).filter
        (· ≠ iface)
    ({ n with
      discoveryPRs := update n.discoveryPRs r.dest
        (some
          { timeout := c.now + pathRequestTimeout
            requestingIfaces := addIface asking iface
            engaged := true }) } : Node).transmit searched (n.pathRequest w r.dest r.tag16)
      (.relayed iface)

def Node.answerPathRequest : Node :=
  if (n.inflightPRs r.dest).isSome then n.joinDiscovery c r.dest iface
  else
    let n : Node := { n with inflightPRs := update n.inflightPRs r.dest (some c.now) }
    if n.dests.contains r.dest then (n.announce c r.dest iface true).resolveInflight r.dest
    else
      match n.paths r.dest with
      | some e =>
        if r.requestor = some e.nextHop ∨ n.crossesLeaf iface e.iface then
          n.resolveInflight r.dest
        else (n.queueResponse c e r.dest iface).resolveInflight r.dest
      | none => n.discover w c r iface

def Node.handlePathRequest : Node :=
  match parsePathRequest pkt.hdr.data with
  | none => n
  | some r =>
    if n.prTags.contains r.unique || n.prTagsPrev.contains r.unique then n
    else
      let n : Node := { n with prTags := insertHash n.prTags r.unique }
      if n.leaf pkt.iface then
        if n.dests.contains r.dest then n.announce c r.dest pkt.iface true else n
      else n.answerPathRequest w c r pkt.iface

/-- The packet counts one hop more, or several on a paid link. -/
def Header.countHops (extra : Nat) (h : Header) : Header :=
  if 0 < extra ∧ h.hops.toNat + 1 + extra ≤ 255 then
    { h with hops := h.hops + UInt8.ofNat extra + 1 }
  else { h with hops := h.hops + 1 }

/-- A packet for a local destination that names the destination as its next hop. -/
def Node.normalize (h : Header) : Header :=
  if h.headerType2 ∧ h.packetType ≠ .announce ∧ h.transportID = h.destHash ∧
      h.transportID ≠ n.idHash ∧ n.dests.contains h.destHash then
    h.stripTransport
  else h

/-- The contexts that pass the filter whether the packet was seen or not. -/
def repeatable : List UInt8 :=
  [contextKeepalive, contextResourceReq, contextResourcePRF, contextResource,
    contextCacheRequest, contextChannel]

namespace Node

def packetFilter (h : Header) : Bool :=
  if h.headerType2 ∧ h.packetType ≠ .announce ∧ h.transportID ≠ n.idHash then false
  else if repeatable.contains h.context then true
  else if h.destType = .plain ∨ h.destType = .group then
    h.packetType ≠ .announce && h.hops.toNat ≤ 1
  else if n.hashlist.contains (w.packetHash h) || n.hashlistPrev.contains (w.packetHash h) then
    h.packetType = .announce && h.destType = .single
  else true

/-- What the node's own links and destinations send. -/
def reply : Node :=
  c.replies.foldl (fun n r => n.transmit [r.1] r.2 .own) n

def rememberHash : Node :=
  if (n.linkTable pkt.hdr.destHash).isNone ∧
      ¬(pkt.hdr.packetType = .proof ∧ pkt.hdr.context = contextLRProof) then
    { n with hashlist := insertHash n.hashlist pkt.hash }
  else n

def dispatch : Node :=
  match pkt.hdr.packetType with
  | .announce => n.handleAnnounce w c pkt
  | .linkRequest =>
    if pkt.hdr.destType ≠ .single then n
    else if n.dests.contains pkt.hdr.destHash then n.reply c
    else n.forwardHeader1 w c pkt
  | .data =>
    match pkt.hdr.destType with
    | .link => n.reply c
    | .plain => if pkt.hdr.destHash = w.pathRequestDest then n.handlePathRequest w c pkt else n
    | .single => if n.dests.contains pkt.hdr.destHash then n.reply c else n.forwardHeader1 w c pkt
    | .group => n
  | .proof =>
    if pkt.hdr.context = contextLRProof then
      match n.lrProofTransit w c pkt with
      | some n => n
      | none => n.reply c
    else if pkt.hdr.context = contextResourcePRF then n.reply c
    else n.proofTransit pkt

/-- The links that are carried come before the rest. -/
def transit : Node :=
  if pkt.hdr.packetType ≠ .announce ∧ pkt.hdr.packetType ≠ .linkRequest ∧
      pkt.hdr.context ≠ contextLRProof then
    match n.linkTransit c pkt with
    | some n => n
    | none => n.dispatch w c pkt
  else n.dispatch w c pkt

/-- `Inbound`. -/
def inbound (received : Header) : Node :=
  let h := n.normalize received
  if n.packetFilter w h then
    let pkt : Packet := { hdr := h.countHops c.extraHops, hash := w.packetHash h, iface }
    let n := n.rememberHash pkt
    if pkt.hdr.headerType2 ∧ pkt.hdr.packetType ≠ .announce then
      if pkt.hdr.transportID ≠ n.idHash then n
      else
        match n.forwardTransport w c pkt with
        | some n => n
        | none => if pkt.hdr.packetType = .linkRequest then n.transit w c pkt else n
    else n.transit w c pkt
  else n

/-- Send a packet of the node along the path, or wherever broadcasts may go. -/
def outbound (h : Header) (dest : Bytes) (destType : DestType) : Node :=
  let path :=
    if h.packetType ≠ .announce ∧ destType ≠ .plain ∧ destType ≠ .group then
      (n.paths dest).filter fun e => decide (c.now < e.expires)
    else none
  match path with
  | some e =>
    (n.usePath e dest c.now).transmit [e.iface]
      (if e.direct then h else h.rewriteForTransport e.nextHop) .own
  | none => n.transmit c.floodable h .own

def requestPath (dest tag : Bytes) : Node :=
  match (n.paths dest).filter fun e => decide (c.now < e.expires) with
  | some _ => n
  | none => n.transmit (c.floodable ++ c.paidTake dest) (n.pathRequest w dest tag) .own

def expireTables (now : Nat) (n : Node) : Node :=
  { n with
    reverseTable := fun k => (n.reverseTable k).filter fun e =>
      decide (now ≤ e.timestamp + reverseTimeout)
    linkTable := fun k => (n.linkTable k).filter fun e =>
      (e.validated || decide (now ≤ e.proofTimeout)) && decide (now ≤ e.timestamp + linkTimeout)
    paths := fun k => (n.paths k).filter fun e => decide (now ≤ e.expires + n.ttl) }

def expireDiscovery (now : Nat) (n : Node) : Node :=
  { n with
    discoveryPRs := fun k => (n.discoveryPRs k).filter fun d => decide (now ≤ d.timeout)
    inflightPRs := fun k =>
      if (n.discoveryPRs k).any fun d => decide (d.timeout < now) then none
      else (n.inflightPRs k).filter fun t => decide (now ≤ t + pathRequestTimeout) }

/-- The sets of what was seen are renewed when they grow large. -/
def rotateSeen : Node :=
  let n : Node :=
    if 50000 < n.hashlist.length then { n with hashlistPrev := n.hashlist, hashlist := [] } else n
  if 20000 < n.prTags.length then { n with prTagsPrev := n.prTags, prTags := [] } else n

def jobs (order : List Bytes) (n : Node) : Node :=
  ((((n.processAnnounceTable w c order).expireTables c.now).expireDiscovery c.now).reply
    c).rotateSeen

end Node

inductive NodeEvent where
  | inbound (c : Circumstances) (iface : String) (h : Header)
  | announce (c : Circumstances) (dest : Bytes) (iface : String) (pathResponse : Bool)
  | requestPath (c : Circumstances) (dest tag : Bytes)
  | outbound (c : Circumstances) (h : Header) (dest : Bytes) (destType : DestType)
  | linkPacket (iface : String) (h : Header)
  | flushAnnounceQueue (iface : String)
  | jobs (c : Circumstances) (order : List Bytes)
  | addDestination (dest : Bytes)
  | removeDestination (dest : Bytes)
  | remember (dest key : Bytes)

def Node.step : NodeEvent → Option Node
  | .inbound c iface h => some (n.inbound w c iface h)
  | .announce c dest iface pathResponse => some (n.announce c dest iface pathResponse)
  | .requestPath c dest tag => some (n.requestPath w c dest tag)
  | .outbound c h dest destType => some (n.outbound c h dest destType)
  | .linkPacket iface h => some (n.transmit [iface] h .own)
  | .flushAnnounceQueue iface => some (n.flushAnnounceQueue iface)
  | .jobs c order => some (n.jobs w c order)
  | .addDestination dest => some { n with dests := insertHash n.dests dest }
  | .removeDestination dest => some { n with dests := n.dests.filter (· ≠ dest) }
  | .remember dest key => some { n with identities := update n.identities dest (some key) }

end MeshsatHub.Rns
