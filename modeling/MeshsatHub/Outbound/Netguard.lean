import MeshsatHub.Foundations.Strings

/-!
# The outbound target check

`internal/netguard/netguard.go`. The standard library's address predicates are spelled out over
32-bit and 128-bit addresses. The answer of the name server is an argument of the check.
-/

namespace MeshsatHub.Outbound
open Strings

inductive IP where
  | v4 (a : BitVec 32)
  | v6 (a : BitVec 128)
  deriving DecidableEq

def inNetwork {w : Nat} (net : BitVec w) (bits : Nat) (a : BitVec w) : Bool :=
  a >>> (w - bits) = net >>> (w - bits)

def octets (a b c d : Nat) : BitVec 32 := BitVec.ofNat 32 (((a * 256 + b) * 256 + c) * 256 + d)

namespace IP

/-- `To4`: a 128-bit address `::ffff:a.b.c.d` is the 32-bit one. -/
def normal : IP → IP
  | v4 a => v4 a
  | v6 a => if inNetwork (0xffff00000000#128) 96 a then v4 (a.truncate 32) else v6 a

def classify (four : BitVec 32 → Bool) (six : BitVec 128 → Bool) (ip : IP) : Bool :=
  match ip.normal with
  | v4 a => four a
  | v6 a => six a

def isLoopback : IP → Bool := classify (inNetwork (octets 127 0 0 0) 8) (· = 1#128)

def isUnspecified : IP → Bool := classify (· = 0#32) (· = 0#128)

def isLinkLocalUnicast : IP → Bool :=
  classify (inNetwork (octets 169 254 0 0) 16)
    (inNetwork (0xfe800000000000000000000000000000#128) 10)

/-- The scope, in the low half of the second octet of a multicast address. -/
def multicastScope (a : BitVec 128) : BitVec 4 := a.extractLsb' 112 4

def isMulticast : IP → Bool :=
  classify (inNetwork (octets 224 0 0 0) 4)
    (inNetwork (0xff000000000000000000000000000000#128) 8)

def isLinkLocalMulticast : IP → Bool :=
  classify (inNetwork (octets 224 0 0 0) 24) fun a =>
    inNetwork (0xff000000000000000000000000000000#128) 8 a && multicastScope a = 2#4

def isInterfaceLocalMulticast : IP → Bool :=
  classify (fun _ => false) fun a =>
    inNetwork (0xff000000000000000000000000000000#128) 8 a && multicastScope a = 1#4

def isPrivate : IP → Bool :=
  classify
    (fun a =>
      inNetwork (octets 10 0 0 0) 8 a || inNetwork (octets 172 16 0 0) 12 a ||
        inNetwork (octets 192 168 0 0) 16 a)
    (inNetwork (0xfc000000000000000000000000000000#128) 7)

/-- The networks the standard library has no class for: carrier-grade NAT,
protocol assignments, benchmarking; unspecified, NAT64, 6to4. -/
def isReservedNetwork : IP → Bool :=
  classify
    (fun a =>
      inNetwork (octets 100 64 0 0) 10 a || inNetwork (octets 192 0 0 0) 24 a ||
        inNetwork (octets 198 18 0 0) 15 a)
    fun a =>
      inNetwork (0#128) 128 a || inNetwork (0x0064ff9b000000000000000000000000#128) 96 a ||
        inNetwork (0x20020000000000000000000000000000#128) 16 a

end IP

def isPublicIP (ip : IP) : Bool :=
  !(ip.isLoopback || ip.isUnspecified || ip.isLinkLocalUnicast || ip.isLinkLocalMulticast ||
    ip.isInterfaceLocalMulticast || ip.isMulticast || ip.isPrivate) && !ip.isReservedNetwork

variable (allowPrivate : Bool)

/-- With private targets allowed only what no service is reached on is refused. -/
def reachable (ip : IP) : Bool :=
  if allowPrivate then
    !ip.isUnspecified && !ip.isMulticast && !ip.isInterfaceLocalMulticast &&
      !ip.isLinkLocalUnicast && !ip.isLinkLocalMulticast
  else isPublicIP ip

structure URL where
  scheme : String
  host : String
  deriving DecidableEq

/-- The parsing of URLs and address literals and the lower casing of names. -/
structure Library where
  parseURL : String → Option URL
  parseIP : String → Option IP
  toLower : String → String
  /-- The URL a `Location` stands for, seen from the URL of the request. -/
  resolveReference : URL → String → Option URL

inductive Unsafe where
  | notURL
  | scheme (s : String)
  | noHost
  | internalName (host : String)
  | cannotResolve (host : String)
  | notPublic (host : String) (ip : IP)

/-- Names that never need resolving to be wrong. -/
def isInternalName (lower : String) : Bool :=
  lower = "localhost" || lower.endsWith ".localhost" || lower.endsWith ".svc" ||
    lower.endsWith ".svc.cluster.local" || lower.endsWith ".internal" || lower.endsWith ".local"

/-- The part of `ValidatePublicURL` before the lookup: the host to resolve. -/
def targetHost (lib : Library) (allowPrivate : Bool) (raw : String) : Except Unsafe String :=
  match lib.parseURL (trimSpace raw) with
  | none => .error .notURL
  | some u =>
    if u.scheme ≠ "http" ∧ u.scheme ≠ "https" then .error (.scheme u.scheme)
    else if u.host = "" then .error .noHost
    else if !allowPrivate && isInternalName (lib.toLower u.host) then
      .error (.internalName u.host)
    else .ok u.host

/-- The part of `validateHost` after the lookup. -/
def checkAnswer (host : String) : Option (List IP) → Except Unsafe Unit
  | none => .error (.cannotResolve host)
  | some ips =>
    match ips.find? fun ip => !reachable allowPrivate ip with
    | some ip => .error (.notPublic host ip)
    | none => .ok ()

theorem checkAnswer_ok {allowPrivate : Bool} {host : String} {answer : Option (List IP)}
    (h : checkAnswer allowPrivate host answer = .ok ()) :
    ∃ ips, answer = some ips ∧ ∀ ip ∈ ips, reachable allowPrivate ip := by
  cases answer with
  | none => cases h
  | some ips =>
    refine ⟨ips, rfl, fun ip hip => ?_⟩
    rw [checkAnswer] at h
    split at h
    · cases h
    · rename_i hnone
      simpa using List.find?_eq_none.1 hnone ip hip

end MeshsatHub.Outbound
