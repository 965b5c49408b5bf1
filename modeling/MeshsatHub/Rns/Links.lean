import MeshsatHub.Rnswire.Hdlc

/-!
# Link requests

A peer opens a link with a request that carries two ephemeral keys and, optionally, three signalling
bytes with an MTU of 21 bits and a mode. The derivation of the link key is a parameter.
-/

namespace MeshsatHub.Rns
open Rnswire

def defaultMTU : Nat := 500

def headerMaxSize : Nat := 35

/-- The least overhead of an interface access code. -/
def ifacMinSize : Nat := 1

def tokenOverhead : Nat := 48

def aes128BlockSize : Nat := 16

/-- The two keys of a link request. -/
def linkECPubSize : Nat := 64

/-- The signalling bytes of a link request. -/
def linkMTUSize : Nat := 3

def linkModeAES256CBC : Nat := 1

/-- The largest plaintext of one link packet; the division is that of the source. -/
def linkMDU (mtu : Int) : Int :=
  ((mtu - ifacMinSize - headerMinSize - tokenOverhead).tdiv aes128BlockSize) * aes128BlockSize - 1

def parseSignalling : Bytes → Nat × Nat
  | s₀ :: s₁ :: s₂ :: _ =>
    ((s₀.toNat * 2 ^ 16 + s₁.toNat * 2 ^ 8 + s₂.toNat) % 2 ^ 21, s₀.toNat / 2 ^ 5)
  | _ => (defaultMTU, linkModeAES256CBC)

structure RNSLinkRequest where
  ephPub : Bytes
  ephSigPub : Bytes
  mtu : Nat
  mode : Nat
  signalled : Bool

inductive RequestError where
  | length (got : Nat)
  | modeNotEnabled (mode : Nat)

def requestSignalling (data : Bytes) : Nat × Nat :=
  if data.length = linkECPubSize + linkMTUSize then parseSignalling (data.drop linkECPubSize)
  else (defaultMTU, linkModeAES256CBC)

def unmarshalRNSLinkRequest (data : Bytes) : Except RequestError RNSLinkRequest :=
  if data.length ≠ linkECPubSize ∧ data.length ≠ linkECPubSize + linkMTUSize then
    .error (.length data.length)
  else if (requestSignalling data).2 ≠ linkModeAES256CBC then
    .error (.modeNotEnabled (requestSignalling data).2)
  else
    .ok
      { ephPub := data.take 32
        ephSigPub := (data.drop 32).take 32
        mtu := (requestSignalling data).1
        mode := (requestSignalling data).2
        signalled := data.length = linkECPubSize + linkMTUSize }

/-- A link, as far as its packets depend on the request. -/
structure Link where
  id : Bytes
  key : Bytes
  mtu : Int
  mdu : Int

def Link.sdu (l : Link) : Int := l.mtu - headerMaxSize - ifacMinSize

structure Responder where
  acceptLinks : Bool
  /-- `LinkIDFromRequestPacket` of the packet, if its header can be read. -/
  linkID : Option Bytes
  /-- The hardware MTU of the receiving interface; none is known if it is not positive. -/
  hwMTU : Int
  /-- The link key agreed with a peer's key, unless the key is refused. -/
  agree : Bytes → Option Bytes

def linkMTU (hwMTU : Int) (lr : RNSLinkRequest) : Int :=
  if lr.signalled then
    if 0 < hwMTU ∧ hwMTU < lr.mtu then hwMTU else lr.mtu
  else defaultMTU

/-- The link that a request opens. -/
def accept (d : Responder) (data : Bytes) : Option Link :=
  if d.acceptLinks then
    match unmarshalRNSLinkRequest data with
    | .error _ => none
    | .ok lr =>
      match d.linkID, d.agree lr.ephPub with
      | some id, some key =>
        some { id, key, mtu := linkMTU d.hwMTU lr, mdu := linkMDU (linkMTU d.hwMTU lr) }
      | _, _ => none
  else none

def signalledMTU (data : Bytes) : Option Nat :=
  if data.length = linkECPubSize + linkMTUSize then
    some (parseSignalling (data.drop linkECPubSize)).1
  else none

/-- Neither the signalled MTU nor the one of the interface is used up by the headers. -/
def Roomy (hwMTU : Int) (data : Bytes) : Prop :=
  ∀ mtu, signalledMTU data = some mtu →
    headerMaxSize + ifacMinSize < mtu ∧ ¬(0 < hwMTU ∧ hwMTU ≤ headerMaxSize + ifacMinSize)

variable {data : Bytes} {d : Responder}

theorem unmarshalRNSLinkRequest_mtu {lr : RNSLinkRequest}
    (h : unmarshalRNSLinkRequest data = .ok lr) :
    signalledMTU data = if lr.signalled then some lr.mtu else none := by
  rw [unmarshalRNSLinkRequest] at h
  split at h
  · cases h
  · split at h
    · cases h
    · cases h
      rw [signalledMTU, requestSignalling]
      by_cases hlength : data.length = linkECPubSize + linkMTUSize <;> simp [hlength]

theorem accept_eq_some {l : Link} (h : accept d data = some l) :
    ∃ lr, unmarshalRNSLinkRequest data = .ok lr ∧ l.mtu = linkMTU d.hwMTU lr := by
  revert h
  fun_cases accept d data with rintro ⟨⟩
  | case2 _ lr hlr => exact ⟨lr, hlr, rfl⟩

theorem sdu_pos_iff {l : Link} (h : accept d data = some l) : 0 < l.sdu ↔ Roomy d.hwMTU data := by
  obtain ⟨lr, hlr, hmtu⟩ := accept_eq_some h
  rw [Link.sdu, hmtu, linkMTU, Roomy, unmarshalRNSLinkRequest_mtu hlr]
  cases lr.signalled with
  | false => simp [defaultMTU, headerMaxSize, ifacMinSize]
  | true =>
    simp only [if_true, Option.some.injEq, forall_eq', headerMaxSize, ifacMinSize]
    split <;> omega

end MeshsatHub.Rns
