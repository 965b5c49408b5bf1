import MeshsatHub.Foundations.Follow
import MeshsatHub.Foundations.Runs

/-!
# Rotation of the directory signing key

`internal/directory/rotation.go` with the anchors of `signing.go`: any number of calls of
`RotateSigningKey` and of the refreshes of `KeepFresh`, interleaved at single operations. A call may
stop before or after any of them. Keys are numbered in the order in which they are generated. No
step looks at `history` and `settled`.
-/

namespace MeshsatHub.Directory
open Follow

abbrev Key := Nat

structure RotationPayload where
  tenantID : String
  version : Nat
  newKeyID : Key

structure Envelope where
  keyID : Key
  payload : RotationPayload

structure Rotation where
  tenantID : String
  version : Nat
  oldKeyID : Key
  newKeyID : Key
  envelope : Envelope

structure Keys where
  current : Key
  pending : Option Key
  /-- Newest first. -/
  records : List Rotation
  versions : String → Nat
  anchors : Nat → Key
  fresh : Key
  history : List Key

def byOld (records : List Rotation) (tenantID : String) (key : Key) : Option Rotation :=
  records.find? fun r => r.tenantID = tenantID ∧ r.oldKeyID = key

namespace Keys

variable (k : Keys) (tenantID : String) (key : Key)

/-- The key the tenant's record from `key` names. -/
def next : Option Key :=
  (byOld k.records tenantID key).map Rotation.newKeyID

def chain (fromKeyID : Key) : List Rotation :=
  follow (byOld k.records tenantID) Rotation.newKeyID (k.records.length + 1) [] fromKeyID

/-- `RotationChain`; without a tenant it answers `ErrEmptyID`. -/
def rotationChain (fromKeyID : Key) : Option (List Rotation) :=
  if tenantID = "" then none else some (k.chain tenantID fromKeyID)

def Held : Prop := key = k.current ∨ k.pending = some key

instance (k : Keys) (key : Key) : Decidable (k.Held key) :=
  inferInstanceAs (Decidable (_ ∨ _))

def setAnchor (replica : Nat) (key : Key) : Keys :=
  { k with anchors := Function.update k.anchors replica key }

def bumpVersion : Keys :=
  { k with versions := Function.update k.versions tenantID (k.versions tenantID + 1) }

def clearPending : Keys :=
  if k.pending = some key then { k with pending := none } else k

def storePending : Keys :=
  { k with pending := some (k.pending.getD k.fresh), fresh := k.fresh + 1 }

/-- The compare-and-set that makes a key current, where it succeeds. -/
def activate : Keys :=
  { k with current := key, history := k.history ++ [key] }

/-- `sealWith`: the anchor signs only while it holds the key asked for. -/
def sealWith (replica : Nat) (keyID : Key) (payload : RotationPayload) : Option Envelope :=
  if k.anchors replica = keyID then some ⟨keyID, payload⟩ else none

/-- `appendRotation`: nothing is written for a tenant that has a record from the
old key; the answer tells whether a record was added. -/
def appendRotation (replica : Nat) (tenantID : String) (oldKeyID newKeyID : Key) :
    Option (Keys × Bool) :=
  if (byOld k.records tenantID oldKeyID).isSome then some (k, false)
  else
    let version := k.versions tenantID + 1
    (k.sealWith replica oldKeyID ⟨tenantID, version, newKeyID⟩).map fun envelope =>
      ({ k.bumpVersion tenantID with
          records := ⟨tenantID, version, oldKeyID, newKeyID, envelope⟩ :: k.records }, true)

end Keys

structure RotationResult where
  oldKeyID : Option Key
  newKeyID : Option Key
  tenants : Nat
  records : Nat
  resumed : Bool

/-- How a call ended: `ErrRotationInProgress`, a signature refused by the anchor
and a failed operation are its errors. -/
inductive Outcome where
  | succeeded
  | inProgress
  | refused
  | stopped
  | refreshed
  deriving DecidableEq

/-- What a refresh is part of: the start of a rotation, a rotation that gives up,
or `KeepFresh`. -/
inductive Purpose where
  | start
  | giveUp
  | keepFresh
  deriving DecidableEq

/-- The operation a call is about to make. -/
inductive Stage where
  | fetch (why : Purpose)
  | compare (why : Purpose) (stored : Key)
  | assign (why : Purpose) (stored : Key)
  | readAnchor
  | readPending (old : Key)
  | store (old : Key)
  | checkCurrent (old new : Key)
  | rollback (new : Key)
  | reread (old : Key)
  | append (old new : Key) (todo : List String)
  | activate (old new : Key)
  | checkActivated (new : Key)
  | setKey (new : Key)
  | clear (new : Key)
  | cleanUp (old : Key)
  | done (outcome : Outcome)
  deriving DecidableEq

def Purpose.next : Purpose → Stage
  | .start => .readAnchor
  | .giveUp => .done .inProgress
  | .keepFresh => .done .refreshed

structure Call where
  replica : Nat
  stage : Stage
  res : RotationResult

namespace Call

variable (c : Call)

def goTo (stage : Stage) : Call := { c with stage := stage }

def resume (tenants : List String) (old pending : Key) : Call :=
  { c with
    stage := .append old pending tenants
    res := { c.res with newKeyID := some pending, resumed := true } }

def rotating : Bool :=
  match c.stage with
  | .done _ => false
  | .fetch .keepFresh => false
  | .compare .keepFresh _ => false
  | .assign .keepFresh _ => false
  | _ => true

def finished : Bool :=
  match c.stage with
  | .done _ => true
  | _ => false

end Call

def advance (tenants : List String) (k : Keys) (c : Call) : Keys × Call :=
  match c.stage with
  -- `Refresh` reads the store, compares with the anchor and sets it.
  | .fetch why => (k, c.goTo (.compare why k.current))
  | .compare why stored =>
    if k.anchors c.replica = stored then (k, c.goTo why.next) else (k, c.goTo (.assign why stored))
  | .assign why stored => (k.setAnchor c.replica stored, c.goTo why.next)
  | .readAnchor =>
    (k, { c with
          stage := .readPending (k.anchors c.replica)
          res := ⟨some (k.anchors c.replica), none, tenants.length, 0, false⟩ })
  | .readPending old =>
    match k.pending with
    | none => (k, c.goTo (.store old))
    | some pending =>
      if pending = old then
        (k, { c with
              stage := .cleanUp old
              res := { c.res with newKeyID := some old, resumed := true } })
      else (k, c.resume tenants old pending)
  | .store old =>
    if k.pending = none then (k.storePending, c.goTo (.checkCurrent old k.fresh))
    else (k.storePending, c.goTo (.reread old))
  | .checkCurrent old new =>
    if k.current = old then
      (k, { c with
            stage := .append old new tenants
            res := { c.res with newKeyID := some new } })
    else (k, c.goTo (.rollback new))
  | .rollback new => (k.clearPending new, c.goTo (.done .inProgress))
  | .reread old =>
    match k.pending with
    | none => (k, c.goTo (.done .inProgress))
    | some pending =>
      if pending = old then (k, c.goTo (.done .inProgress))
      else (k, c.resume tenants old pending)
  | .append old new [] => (k, c.goTo (.activate old new))
  | .append old new (tenantID :: todo) =>
    match k.appendRotation c.replica tenantID old new with
    | none => (k, c.goTo (.done .refused))
    | some (k', added) =>
      (k', { c with
             stage := .append old new todo
             res := { c.res with records := c.res.records + added.toNat } })
  | .activate old new =>
    if k.current = old then (k.activate new, c.goTo (.setKey new))
    else (k, c.goTo (.checkActivated new))
  | .checkActivated new =>
    if k.current = new then
      (k, { c with stage := .setKey new, res := { c.res with resumed := true } })
    else (k, c.goTo (.fetch .giveUp))
  | .setKey new => (k.setAnchor c.replica new, c.goTo (.clear new))
  | .clear new => (k.clearPending new, c.goTo (.done .succeeded))
  | .cleanUp old => (k.clearPending old, c.goTo (.done .succeeded))
  | .done _ => (k, c)

structure Hub where
  keys : Keys
  calls : List Call
  settled : Bool

/-- No rotation is running besides call `i`. -/
def Hub.idleBesides (h : Hub) (i : Nat) : Bool := (h.calls.eraseIdx i).all fun c => !c.rotating

inductive Event where
  | rotate (replica : Nat)
  | keepFresh (replica : Nat)
  | run (i : Nat)
  | stop (i : Nat)
  /-- Another change of a tenant's directory. -/
  | bump (tenantID : String)

def begin (replica : Nat) (why : Purpose) : Call := ⟨replica, .fetch why, ⟨none, none, 0, 0, false⟩⟩

def step (tenants : List String) (h : Hub) : Event → Option Hub
  | .rotate replica => some { h with calls := h.calls ++ [begin replica .start], settled := false }
  | .keepFresh replica => some { h with calls := h.calls ++ [begin replica .keepFresh] }
  | .run i =>
    match h.calls[i]? with
    | none => none
    | some c =>
      if c.finished then none
      else
        let (keys, c') := advance tenants h.keys c
        some
          { keys := keys
            calls := h.calls.set i c'
            settled :=
              if c'.stage = .done .succeeded then h.idleBesides i else h.settled }
  | .stop i =>
    match h.calls[i]? with
    | none => none
    | some c =>
      if c.finished then none
      else some { h with calls := h.calls.set i (c.goTo (.done .stopped)) }
  | .bump tenantID => some { h with keys := h.keys.bumpVersion tenantID }

/-- The Hub after its first key was generated, no rotation made yet. -/
def initial : Hub where
  keys :=
    { current := 0
      pending := none
      records := []
      versions := fun _ => 0
      anchors := fun _ => 0
      fresh := 1
      history := [0] }
  calls := []
  settled := false

end MeshsatHub.Directory
