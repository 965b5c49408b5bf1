import MeshsatHub.Foundations.Interleaving

/-!
# Connections of the public listener and private nodes

A tenant in the Private mode has a node of its own, whose interfaces are the connections that
presented the tenant's access code. A connection is bound by its first frame. A step of a call is
what it does under one of four locks. No connection number is used twice. No call reads the log. The
budget of key trials, ages and the order of a map are choices of the environment.
-/

namespace MeshsatHub.Rnsnode
open Interleaving Function

structure Code where
  netname : String
  passphrase : String
  deriving DecidableEq

structure Key where
  code : Code
  made : Nat
  deriving DecidableEq

structure Frame where
  flagged : Bool
  madeWith : Option Code
  deriving DecidableEq

def Code.unwrap (c : Code) (f : Frame) : Bool := f.madeWith = some c

structure TenantNode where
  tenant : String
  ifac : Key
  conns : List Nat

/-- What a connection has been classified as: `tn` is a private node, `main` the main one. -/
structure Binding where
  tn : Option Nat
  main : Bool
  unmatched : Nat

/-- What has happened. -/
inductive Entry where
  | opened (id : Nat)
  | keyed (tenant : String) (n : Nat) (key : Key)
  | bound (id n : Nat) (key : Key) (frame : Frame)
  | handed (n id : Nat)
  | sent (n id : Nat)
  deriving DecidableEq

structure Store where
  next : Nat
  conns : List Nat
  bindings : Nat → Option Binding
  nodes : List TenantNode
  privates : String → Option Nat
  log : List Entry

structure Config where
  publicIFAC : Option Code
  maxConns : Nat

/-- Frames that match no key before the connection is closed. -/
def maxUnmatched : Nat := 3

namespace Store
variable (g : Store) (n : Nat)

def key : Option Key := g.nodes[n]?.map TenantNode.ifac

def ifaces : List Nat := (g.nodes[n]?.map TenantNode.conns).getD []

def live : Bool :=
  match g.nodes[n]? with
  | some node => g.privates node.tenant == some n
  | none => false

def candidates : List Nat := (List.range g.nodes.length).filter g.live

variable (id : Nat)

/-- The connection is on the listener and has not been classified. -/
def unclassified : Bool :=
  match g.bindings id with
  | some b => b.tn.isNone && !b.main
  | none => false

def isMainBound : Bool :=
  match g.bindings id with
  | some b => b.main
  | none => false

def note (e : Entry) : Store := { g with log := g.log ++ [e] }

def list (f : List Nat → List Nat) : Store :=
  { g with nodes := g.nodes.modify n fun node => { node with conns := f node.conns } }

def bind (b : Option Binding) : Store :=
  { g with bindings := update g.bindings id b }

/-- `TCPServer.remove`. -/
def remove : Store := { g with conns := g.conns.filter (· ≠ id) }

/-- A changed code. -/
def rekey (key : Key) : Store :=
  { g with nodes := g.nodes.modify n fun node => { node with ifac := key } }

end Store

/-- How a call that others may rely on has returned. -/
inductive Return where
  | served
  | changed (n : Nat) (key : Key)
  | released (n : Nat)
  deriving DecidableEq

/-- What follows when the connections in hand have been closed. -/
inductive After where
  | reading (id : Nat)
  | returned (r : Return)
  deriving DecidableEq

inductive Call where
  | announcing (id : Nat)
  | reading (id : Nat)
  | receiving (id : Nat) (frame : Frame)
  | bindingMain (id : Nat)
  | listing (id : Nat) (frame : Frame)
  | trying (id : Nat) (frame : Frame) (c : Nat) (cands : List Nat)
  | checking (id n : Nat) (key : Key) (frame : Frame)
  | binding (id n : Nat) (key : Key) (frame : Frame)
  | inserting (id n : Nat) (key : Key)
  | confirming (id n : Nat)
  | withdrawing (id n : Nat)
  | handing (id n : Nat)
  | unmatching (id : Nat)
  | closing (id : Nat) (rest : List Nat) (after : After)
  | removing (id : Nat) (rest : List Nat) (after : After)
  | unbinding (id : Nat) (rest : List Nat) (after : After)
  | unlisting (id n : Nat) (rest : List Nat) (after : After)
  | releasing (n : Nat)
  | sending (w : Option Nat) (id : Nat)
  | writing (w : Option Nat) (id : Nat)
  | dropping (id : Nat)
  | returned (r : Return)
  deriving DecidableEq

/-- What begins a call. A transmission is a private node's, or the main one's. -/
inductive Request where
  | accept
  | privateNode (tenant : String) (code : Code) (order : List Nat)
  | releasePrivate (tenant : String)
  | transmit (w : Option Nat) (id : Nat)
  | sweepUnclassified (stale : List Nat)

/-- What the environment chooses for a step: the peer's next move, whether the budget allows
a trial, the order of a map, how a write ends. -/
inductive Op where
  | frame (f : Frame)
  | hangUp
  | go
  | allow (allowed : Bool)
  | ranged (order : List Nat)
  | wrote (ok : Bool)

def After.call : After → Call
  | .reading id => .reading id
  | .returned r => .returned r

/-- `closePublic` and what follows it. -/
def closePublic : List Nat → After → Call
  | [], after => after.call
  | id :: rest, after => .closing id rest after

def tryNext (id : Nat) (frame : Frame) : List Nat → Call
  | [] => .unmatching id
  | c :: cands => .trying id frame c cands

variable (cfg : Config)

def classify (id : Nat) (frame : Frame) (allowed : Bool) : Call :=
  if frame.flagged then
    match cfg.publicIFAC with
    | some f =>
      if allowed then
        if f.unwrap frame then .bindingMain id else .listing id frame
      else .reading id
    | none => .listing id frame
  else if cfg.publicIFAC.isSome then .unmatching id
  else .bindingMain id

variable (g : Store)

/-- `onPublicFrame`: what the connection is bound to decides. -/
def onPublicFrame (id : Nat) (frame : Frame) (allowed : Bool) : Call :=
  match g.bindings id with
  | none => .reading id
  | some b =>
    match b.tn with
    | some n => .handing id n
    | none => if b.main then .reading id else classify cfg id frame allowed

def tryKey (id : Nat) (frame : Frame) (c : Nat) (cands : List Nat) (allowed : Bool) : Call :=
  match g.key c with
  | none => tryNext id frame cands
  | some key =>
    if allowed then
      if key.code.unwrap frame then .checking id c key frame else tryNext id frame cands
    else .reading id

/-- `PrivateNode`, under its locks: the tenant's node is made, or left, or its code
changed. -/
def privateNode (tenant : String) (code : Code) (order : List Nat) : Option (Store × Call) :=
  match g.privates tenant with
  | none =>
    let key : Key := ⟨code, 0⟩
    some
      ({ g with
          nodes := g.nodes ++ [⟨tenant, key, []⟩]
          privates := update g.privates tenant (some g.nodes.length)
          log := g.log ++ [.keyed tenant g.nodes.length key] }, .returned .served)
  | some n =>
    match g.key n with
    | none => none
    | some old =>
      if old.code = code then some (g, .returned .served)
      else if order.isPerm (g.ifaces n) then
        let key : Key := ⟨code, old.made + 1⟩
        some ((g.rekey n key).note (.keyed tenant n key),
          closePublic order (.returned (.changed n key)))
      else none

/-- The first locked step of a call. -/
def start : Request → Option (Store × Call)
  | .accept =>
    if g.conns.length < cfg.maxConns then
      some ({ g with next := g.next + 1, conns := g.conns ++ [g.next + 1] },
        .announcing (g.next + 1))
    else none
  | .privateNode tenant code order =>
    if code.netname = "" ∨ code.passphrase = "" then none
    else privateNode g tenant code order
  | .releasePrivate tenant =>
    match g.privates tenant with
    | none => none
    | some n => some ({ g with privates := update g.privates tenant none }, .releasing n)
  | .transmit (some n) id => if id ∈ g.ifaces n then some (g, .sending (some n) id) else none
  | .transmit none id => if g.isMainBound id then some (g, .sending none id) else none
  | .sweepUnclassified stale =>
    if stale.all g.unclassified then some (g, closePublic stale (.returned .served)) else none

/-- `onPublicChange` of a connection that is gone: the binding goes, and then the place in
the list of the node it named. -/
def unbind (id : Nat) (rest : List Nat) (after : After) : Call :=
  match (g.bindings id).bind Binding.tn with
  | some n => .unlisting id n rest after
  | none => closePublic rest after

/-- `unmatched`, once the count is known. -/
def afterUnmatched (id count : Nat) : Call :=
  if maxUnmatched ≤ count then .closing id [] (.reading id) else .reading id

def perform : Call → Op → Option (Store × Call)
  | .announcing id, .go => some ((g.bind id (some ⟨none, false, 0⟩)).note (.opened id), .reading id)
  | .reading id, .frame f => some (g, .receiving id f)
  | .reading id, .hangUp => some (g, .removing id [] (.returned .served))
  | .receiving id frame, .allow allowed => some (g, onPublicFrame cfg g id frame allowed)
  | .bindingMain id, .go =>
    some (g.bind id ((g.bindings id).map fun b => { b with main := true }), .reading id)
  | .listing id frame, .ranged order =>
    if order.isPerm g.candidates then some (g, tryNext id frame order) else none
  | .trying id frame c cands, .allow allowed => some (g, tryKey g id frame c cands allowed)
  | .checking id n key frame, .go =>
    some (g, if g.live n then .binding id n key frame else .reading id)
  | .binding id n key frame, .go =>
    match g.bindings id with
    | none => some (g, .reading id)
    | some b =>
      some ((g.bind id (some { b with tn := some n })).note (.bound id n key frame),
        .inserting id n key)
  | .inserting id n _, .go => some (g.list n (List.insert id), .confirming id n)
  | .confirming id n, .go =>
    some (g, if (g.bindings id).isSome then .handing id n else .withdrawing id n)
  | .withdrawing id n, .go => some (g.list n (·.filter (· ≠ id)), .reading id)
  | .handing id n, .go => some (g.note (.handed n id), .reading id)
  | .unmatching id, .go =>
    match g.bindings id with
    | none => some (g, .reading id)
    | some b =>
      some (g.bind id (some { b with unmatched := b.unmatched + 1 }),
        afterUnmatched id (b.unmatched + 1))
  | .closing id rest after, .go =>
    some (g, if id ∈ g.conns then .removing id rest after else closePublic rest after)
  | .removing id rest after, .go =>
    if id ∈ g.conns then some (g.remove id, .unbinding id rest after)
    else some (g, closePublic rest after)
  | .unbinding id rest after, .go => some (g.bind id none, unbind g id rest after)
  | .unlisting id n rest after, .go => some (g.list n (·.filter (· ≠ id)), closePublic rest after)
  | .releasing n, .ranged order =>
    if order.isPerm (g.ifaces n) then
      some (g, closePublic order (.returned (.released n)))
    else none
  | .sending w id, .go => some (g, if id ∈ g.conns then .writing w id else .returned .served)
  | .writing w id, .wrote true =>
    some (match w with
      | some n => g.note (.sent n id)
      | none => g, .returned .served)
  | .writing _ id, .wrote false => some (g, .dropping id)
  | .dropping id, .go => some (g.remove id, .returned .served)
  | _, _ => none

def program : Program Store Call Request Op := ⟨start cfg, perform cfg⟩

/-- Nobody has connected, and no tenant has a node. -/
def initial : System Store Call := ⟨⟨0, [], fun _ => none, [], fun _ => none, []⟩, []⟩

end MeshsatHub.Rnsnode
