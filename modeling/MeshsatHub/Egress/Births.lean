import MeshsatHub.Foundations.Newest
import MeshsatHub.Foundations.Runs

/-!
# Births, held births and the reader of declarations

The declarations a bridge makes about one modem (`internal/bridge/egress.go`, `egress_pending.go`).
A replica holds the births it has taken until the store has them; `declares` gives what the birth
with a stamp says. Every store operation may fail, with or without effect. No step looks at
`births`, `taken`, `stored` and a reader's `sealedSoFar`, `quiet` and `seen`.
-/

namespace MeshsatHub.Egress
open Newest Function

inductive Format where
  | sealed
  | plain
  deriving DecidableEq

/-- The answers of a reader. -/
inductive Declaration where
  | undeclared
  | declaredPlain
  | declaredSealed
  | unavailable
  deriving DecidableEq

abbrev Decl := Word Int Format

def asDeclaration : Option Format → Declaration
  | some .sealed => .declaredSealed
  | some .plain => .declaredPlain
  | none => .undeclared

/-- What a birth says about the modem. -/
structure Birth where
  stamp : Int
  declares : Option Format
  deriving DecidableEq

def Birth.entry (b : Birth) : Option Decl := b.declares.map (⟨·, b.stamp⟩)

/-- Whether a conditional write replaces what is there. -/
def supersedes : Option Decl → Option Decl → Bool
  | _, none => false
  | none, some _ => true
  | some a, some b => a.stamp ≤ b.stamp

def mergeEntry (old new : Option Decl) : Option Decl := if supersedes old new then new else old

structure Held where
  row : Birth
  entry : Option Decl
  /-- The format still to record for the modem. -/
  record : Option Format
  written : Bool
  version : Nat
  births : List Int

def hold (version : Nat) (b : Birth) : Option Held → Held
  | none =>
    { row := b
      entry := b.entry
      record := b.declares
      written := false
      version := version
      births := [b.stamp] }
  | some h =>
    { row := if h.row.stamp ≤ b.stamp then b else h.row
      entry := mergeEntry h.entry b.entry
      record := if supersedes h.entry b.entry then b.declares else h.record
      written := false
      version := version
      births := h.births ++ [b.stamp] }

/-- A held birth is let go once nothing of it is left to write. -/
def release (h : Held) : Option Held := if h.written ∧ h.record = none then none else some h

structure Replica where
  held : Option Held
  version : Nat
  /-- What a reader of this replica last confirmed. -/
  confirmed : Option Format
  taken : List Int

/-- The row, declarations and links of a snapshot are stored; a birth merged in
since keeps them pending. -/
def Replica.markWritten (r : Replica) (version : Nat) : Replica :=
  match r.held with
  | some h =>
    if h.version = version then { r with held := release { h with written := true } } else r
  | none => r

def Replica.markRecorded (r : Replica) (version : Nat) : Replica :=
  match r.held with
  | some h =>
    if h.version = version then { r with held := release { h with record := none } } else r
  | none => r

structure Store where
  /-- The bridge's declaration for the modem. -/
  entry : Option Decl
  /-- The record per modem. -/
  record : Option Format
  /-- The bridge's row, which keeps its last birth. -/
  row : Option Birth
  stored : List Int
  deriving DecidableEq

/-- `CreateOrUpdateBridge`: each part only where it is not older than what is
stored. -/
def Store.createOrUpdateBridge (s : Store) (snap : Held) : Store where
  entry := mergeEntry s.entry snap.entry
  record := s.record
  row :=
    match s.row with
    | none => some snap.row
    | some row => if row.stamp ≤ snap.row.stamp then some snap.row else some row
  stored := s.stored ++ snap.births

/-- `SetDeviceEgress`: the bridge's stored declaration, if there is one. -/
def Store.setDeviceEgress (s : Store) (format : Format) : Store :=
  { s with record := some ((s.entry.map Word.value).getD format) }

/-- What a failing store operation leaves behind. -/
inductive Outcome where
  | done
  /-- It failed and changed nothing. -/
  | lost
  /-- It was reported as failed but took effect. -/
  | unseen
  deriving DecidableEq

/-- The next operation of a running `writeHeld`. -/
inductive WriteStage where
  | create
  | markWritten
  | record (format : Format)
  | markRecorded
  deriving DecidableEq

structure Writer where
  replica : Nat
  snap : Held
  stage : WriteStage

def recordStage (snap : Held) : Option WriteStage := snap.record.map .record

structure Core where
  replicas : Nat → Replica
  writers : Nat → Option Writer
  store : Store

variable (c : Core) (r : Nat)

def Core.setReplica (replica : Replica) : Core :=
  { c with replicas := update c.replicas r replica }

def Core.setWriter (w : Nat) (writer : Option Writer) : Core :=
  { c with writers := update c.writers w writer }

def Core.take (b : Birth) : Core :=
  let replica := c.replicas r
  c.setReplica r
    { replica with
      held := some (hold (replica.version + 1) b replica.held)
      version := replica.version + 1
      taken := replica.taken ++ [b.stamp] }

/-- A call of `writeHeld` takes its snapshot. -/
def Core.startWrite (r w : Nat) : Option Core :=
  match c.writers w, (c.replicas r).held with
  | none, some h =>
    if h.written then (recordStage h).map fun stage => c.setWriter w (some ⟨r, h, stage⟩)
    else some (c.setWriter w (some ⟨r, h, .create⟩))
  | _, _ => none

/-- The next operation of a write. A failed `CreateOrUpdateBridge` is tried again
or ends the call. -/
def Core.write (w : Nat) (wr : Writer) (outcome : Outcome) (again : Bool) : Core :=
  match wr.stage with
  | .create =>
    let store := c.store.createOrUpdateBridge wr.snap
    let failed := if again then some wr else none
    match outcome with
    | .done => { c with store := store }.setWriter w (some { wr with stage := .markWritten })
    | .lost => c.setWriter w failed
    | .unseen => { c with store := store }.setWriter w failed
  | .markWritten =>
    (c.setReplica wr.replica ((c.replicas wr.replica).markWritten wr.snap.version)).setWriter w
      ((recordStage wr.snap).map fun stage => { wr with stage := stage })
  | .record format =>
    let store := c.store.setDeviceEgress format
    match outcome with
    | .done => { c with store := store }.setWriter w (some { wr with stage := .markRecorded })
    | .lost => c.setWriter w none
    | .unseen => { c with store := store }.setWriter w none
  | .markRecorded =>
    (c.setReplica wr.replica ((c.replicas wr.replica).markRecorded wr.snap.version)).setWriter w
      none

/-- A reader keeps what it has just confirmed. -/
def Core.confirm (confirmed : Option Format) : Core :=
  c.setReplica r { c.replicas r with confirmed := confirmed }

/-- The next lookup of a running `Declaration`. -/
inductive ReadStage where
  /-- `DeviceBridgeID`. -/
  | owner
  /-- `BridgeEgressEntry`, with a held declaration to compare with. -/
  | heldEntry (held : Decl)
  /-- `BridgeEgressEntry`, with nothing held. -/
  | entry
  /-- `DeviceEgress`. -/
  | record
  /-- `GetBridge`, for the last birth. -/
  | birth
  | answered (answer : Declaration)
  deriving DecidableEq

/-- A failed lookup: only a sealed word confirmed earlier still answers. -/
def unavailable (confirmed : Option Format) : Declaration :=
  if confirmed = some .sealed then .declaredSealed else .unavailable

/-- One lookup of `Declaration` and what follows from it: the next stage and what
is confirmed afterwards. -/
def lookup (store : Store) (confirmed : Option Format) (held : Option Decl) (ok : Bool) :
    ReadStage → ReadStage × Option Format
  | .owner =>
    if ok then
      match held with
      | some d => (.heldEntry d, confirmed)
      | none => (.entry, confirmed)
    else if held.map Word.value = some .sealed then (.answered .declaredSealed, confirmed)
    else (.answered (unavailable confirmed), confirmed)
  | .heldEntry d =>
    if ok then
      match store.entry with
      | some e =>
        if d.stamp < e.stamp then (.answered (asDeclaration (some e.value)), some e.value)
        else (.answered (asDeclaration (some d.value)), confirmed)
      | none => (.answered (asDeclaration (some d.value)), confirmed)
    else if d.value = .sealed then (.answered .declaredSealed, confirmed)
    else (.answered (unavailable confirmed), confirmed)
  | .entry =>
    if ok then
      match store.entry with
      | some e => (.answered (asDeclaration (some e.value)), some e.value)
      | none => (.record, confirmed)
    else (.answered (unavailable confirmed), confirmed)
  | .record =>
    if ok then
      match store.record with
      | some format => (.answered (asDeclaration (some format)), some format)
      | none => (.birth, confirmed)
    else (.answered (unavailable confirmed), confirmed)
  | .birth =>
    if ok then
      match store.row.bind Birth.declares with
      | some format => (.answered (asDeclaration (some format)), some format)
      | none => (.answered (asDeclaration confirmed), confirmed)
    else (.answered (unavailable confirmed), confirmed)
  | .answered answer => (.answered answer, confirmed)

structure Reader where
  replica : Nat
  /-- The held declaration, as it was when the call began. -/
  held : Option Decl
  stage : ReadStage
  /-- The newest word visible to the replica has been `sealed` all along. -/
  sealedSoFar : Bool
  /-- No lookup has failed, nothing has been held and nothing written. -/
  quiet : Bool
  /-- The newest word visible to the replica. -/
  seen : Option Decl
  deriving DecidableEq

def Reader.running (rd : Reader) : Bool :=
  match rd.stage with
  | .answered _ => false
  | _ => true

structure System where
  core : Core
  readers : Nat → Option Reader

def Core.visible : List Int := (c.replicas r).taken ++ c.store.stored

variable (declares : Int → Option Format)

/-- What a running reader's replica could see across one step. -/
def Reader.observe (before after : Core) (rd : Reader) : Reader :=
  let seen := newest declares (after.visible rd.replica)
  { rd with
    sealedSoFar := rd.sealedSoFar && decide (seen.map Word.value = some .sealed)
    quiet := rd.quiet && decide (before.store = after.store) &&
      (after.replicas rd.replica).held.isNone
    seen := seen }

def observeAll (before after : Core)
    (readers : Nat → Option Reader) (running : Nat → Bool) : Nat → Option Reader :=
  fun q => (readers q).map fun rd => if running q then rd.observe declares before after else rd

inductive Event where
  /-- The birth with this stamp reaches a replica. -/
  | take (r : Nat) (stamp : Int)
  | startWrite (r w : Nat)
  | write (w : Nat) (outcome : Outcome) (again : Bool)
  /-- `Declaration` is called on a replica and looks at the held births. -/
  | declaration (r q : Nat)
  | read (q : Nat) (ok : Bool)

def System.open (s : System) (q : Nat) : Bool :=
  match s.readers q with
  | some rd => rd.running
  | none => true

def System.advance (s : System) (core : Core) (readers : Nat → Option Reader) : System where
  core := core
  readers := observeAll declares s.core core readers s.open

def step (s : System) : Event → Option System
  | .take r stamp => some (s.advance declares (s.core.take r ⟨stamp, declares stamp⟩) s.readers)
  | .startWrite r w => (s.core.startWrite r w).map fun core => s.advance declares core s.readers
  | .write w outcome again =>
    (s.core.writers w).map fun wr =>
      s.advance declares (s.core.write w wr outcome again) s.readers
  | .declaration r q =>
    match s.readers q with
    | some _ => none
    | none =>
      let rd : Reader :=
        { replica := r
          held := (s.core.replicas r).held.bind Held.entry
          stage := .owner
          sealedSoFar := true
          quiet := true
          seen := none }
      some (s.advance declares s.core (update s.readers q (some rd)))
  | .read q ok =>
    (s.readers q).bind fun rd =>
      if rd.running then
        let (stage, confirmed) :=
          lookup s.core.store (s.core.replicas rd.replica).confirmed rd.held ok rd.stage
        some (s.advance declares (s.core.confirm rd.replica confirmed)
          (update s.readers q (some { rd with stage := stage, quiet := rd.quiet && ok })))
      else none

/-- Nothing taken, held, stored or read. -/
def initial : System where
  core :=
    { replicas := fun _ => ⟨none, 0, none, []⟩
      writers := fun _ => none
      store := ⟨none, none, none, []⟩ }
  readers := fun _ => none

end MeshsatHub.Egress
