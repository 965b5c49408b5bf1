import MeshsatHub.Foundations.Interleaving
import MeshsatHub.Foundations.Numerals
import MeshsatHub.Hubmsg.Reducer

/-!
# Recording the evidence of an operation

`AddMsgOpEvent` locks the row of the operation, looks whether the event is there, inserts it under
the next number, derives the state anew from all events and writes it. A statement is one step. What
a transaction has written stays in the call until it commits; the others see only that the event id
is taken (`inserting`), and wait. A commit can take effect and be reported as failed. `recorded` is
the evidence whose call found it stored or stored it.
-/

namespace MeshsatHub.Hubmsg
open Interleaving Numerals Function List

structure Key where
  tenantID : String
  sender : String
  opID : String
  deriving DecidableEq

structure MsgOp where
  mid : String
  recipient : String
  /-- In milliseconds. -/
  createdAt : Int
  state : EventClass
  conflict : Bool
  rev : Nat
  deriving DecidableEq

structure MsgOpEvent where
  key : Key
  eventID : UUID
  rev : Nat
  eventClass : EventClass
  kind : Kind
  reason : String
  authority : Authority
  scope : String
  detail : String
  time : Nat
  deriving DecidableEq

def scopeHub : String := "the Hub"

def scopeRecipient : String := "the recipient's MeshSat app"

/-- What a piece of evidence says, whoever records it and when. -/
structure Evidence where
  kind : Kind
  eventClass : EventClass
  authority : Authority
  reason : String
  deriving DecidableEq

/-- The hash over the key of an operation and what the evidence says. -/
abbrev Digest := Key → Kind → EventClass → String → List UInt8

variable (digest : Digest)

/-- A UUIDv7 of the creation time and the first ten bytes of the hash. -/
def eventIDFor (key : Key) (createdAt : Int) (kind : Kind)
    (eventClass : EventClass) (reason : String) : UUID :=
  Vector.ofFn fun i : Fin 16 =>
    let hashed := (digest key kind eventClass reason).getD (i.val - 6) 0
    if i.val < 6 then UInt8.ofNat (createdAt.toNat / 256 ^ (5 - i.val))
    else if i.val = 6 then 0x70 ||| (hashed &&& 0x0F)
    else if i.val = 8 then 0x80 ||| (hashed &&& 0x3F)
    else hashed

def newEvent (key : Key) (op : MsgOp) (x : Evidence) (detail : String)
    (time : Nat) : MsgOpEvent where
  key := key
  eventID := eventIDFor digest key op.createdAt x.kind x.eventClass x.reason
  rev := 0
  eventClass := x.eventClass
  kind := x.kind
  reason := x.reason
  authority := x.authority
  scope := if x.authority = .recipient then scopeRecipient else scopeHub
  detail := detail
  time := time

def MsgOp.operation (op : MsgOp) (key : Key) : Operation := ⟨key.opID, op.mid, op.recipient⟩

variable (op : Operation) (e : MsgOpEvent)

def wire : Event where
  source := none
  opID := e.key.opID
  mid := op.mid
  recipient := op.recipient
  eventID := e.eventID
  eventClass := e.eventClass
  kind := e.kind
  reason := e.reason
  authority := e.authority

variable (events : List MsgOpEvent)

def project : EventClass × Bool :=
  let p := reduce op (events.map fun e => { wire op e with source := some (sourceOf e.authority) })
  (p.state, p.conflict)

/-- The answer of a recipient. -/
structure Ack where
  v : Int
  opID : String
  mid : String
  origin : String
  result : String
  reason : String

def recipientReasons : List String :=
  ["op_conflict", "mid_conflict", "digest_mismatch", "bad_expiry", "bad_id",
    "expired_at_recipient", "receiver_busy"]

/-- The evidence in an answer, and the answer that the outbox keeps. -/
def ackEvidence (a : Ack) : Option (Evidence × String) :=
  if a.result = "stored" ∧ a.reason = "" then
    some (⟨.recipientAppStored, .completed, .recipient, ""⟩, "stored")
  else if a.result = "refused" ∧ a.reason = "receiver_busy" then
    some (⟨.recipientBusy, .unknown, .recipient, "receiver_busy"⟩, "")
  else if a.result = "refused" ∧ a.reason = "expired_at_recipient" then
    some (⟨.recipientRefused, .expired, .recipient, a.reason⟩, "refused")
  else if a.result = "refused" ∧ a.reason ∈ recipientReasons then
    some (⟨.recipientRefused, .failed, .recipient, a.reason⟩, "refused")
  else none

def principal (bridgeID : String) : String := "bridge:" ++ bridgeID

/-- What makes the Hub record an event. -/
inductive Report where
  /-- An answer on the topic of a bridge. -/
  | ack (bridgeID : String) (a : Ack)
  /-- The deadline has passed. -/
  | expire
  /-- The recipient is no bridge of the tenant any more. -/
  | refuse
  /-- The broker took the delivery. -/
  | forward

def Report.evidence (key : Key) (op : MsgOp) : Report → Option Evidence
  | .ack bridgeID a =>
    if a.v ≠ 1 ∨ a.origin ≠ key.sender ∨ a.opID ≠ key.opID ∨
        op.recipient ≠ principal bridgeID ∨ op.mid ≠ a.mid then none
    else (ackEvidence a).map Prod.fst
  | .expire => some ⟨.hubExpired, .expired, .hub, "expired"⟩
  | .refuse => some ⟨.hubRefused, .failed, .hub, "refused_unknown_recipient"⟩
  | .forward => some ⟨.hubForwarded, .forwarded, .hub, ""⟩

structure MsgStore where
  ops : Key → Option MsgOp
  /-- The rows of `msg_op_events`, in the order of their commits. -/
  events : List MsgOpEvent
  locked : Key → Bool
  inserting : List UUID
  recorded : List (Key × Evidence)

/-- The events of one operation by their number. -/
def listMsgEvents (key : Key) : List MsgOpEvent :=
  (events.filter fun e => e.key = key).insertionSort fun e e' => e.rev ≤ e'.rev

/-- What a transaction that holds the row of an operation has done so far. -/
inductive Stage where
  | locked (rev : Nat)
  | checked (rev : Nat)
  | inserted
  | projected (state : EventClass) (conflict : Bool)
  | updated (state : EventClass) (conflict : Bool)

/-- A call of `AddMsgOpEvent`. -/
inductive Adding where
  | waiting (ev : MsgOpEvent) (op : Operation)
  | holding (ev : MsgOpEvent) (op : Operation) (stage : Stage)
  | ended

def MsgOpEvent.evidence : Evidence := ⟨e.kind, e.eventClass, e.authority, e.reason⟩

def Stage.hasInserted : Stage → Bool
  | .locked _ => false
  | .checked _ => false
  | _ => true

variable (g : MsgStore) (ev : MsgOpEvent)

/-- A transaction ends: its row is free, and its insert is gone or committed. -/
def MsgStore.release (stage : Stage) : MsgStore :=
  { g with
    locked := update g.locked ev.key false
    inserting :=
      if stage.hasInserted then g.inserting.filter (· ≠ ev.eventID) else g.inserting }

def MsgStore.record : MsgStore :=
  { g with recorded := g.recorded ++ [(ev.key, ev.evidence)] }

def MsgStore.commit (state : EventClass) (conflict : Bool) : MsgStore :=
  { g with
    events := g.events ++ [ev]
    ops := update g.ops ev.key
      ((g.ops ev.key).map fun op => { op with state, conflict, rev := ev.rev }) }

/-- An operation is stored, without events. -/
def MsgStore.admitted (key : Key) (mid recipient : String) (createdAt : Int) : MsgStore :=
  { g with
    ops := update g.ops key (some ⟨mid, recipient, createdAt, .pending, false, 0⟩) }

/-- The next statement of a call. -/
def addMsgOpEvent (l : Adding) (o : Outcome) : Option (MsgStore × Adding) :=
  match l with
  | .waiting ev op =>
    if g.locked ev.key then none
    else if o.ok then
      match g.ops ev.key with
      | none => some (g, .ended)
      | some row =>
        some ({ g with locked := update g.locked ev.key true },
          .holding ev op (.locked row.rev))
    else some (g, .ended)
  | .holding ev op stage =>
    match stage with
    | .locked rev =>
      if o.ok then
        if g.events.any (·.eventID = ev.eventID) then
          some ((g.release ev stage).record ev, .ended)
        else some (g, .holding ev op (.checked rev))
      else some (g.release ev stage, .ended)
    | .checked rev =>
      if ev.eventID ∈ g.inserting then none
      else if o.ok ∧ ¬ g.events.any (fun e => e.eventID = ev.eventID ∨
          (e.key = ev.key ∧ e.rev = rev + 1)) then
        some ({ g with inserting := g.inserting ++ [ev.eventID] },
          .holding { ev with rev := rev + 1 } op .inserted)
      else some (g.release ev stage, .ended)
    | .inserted =>
      if o.ok then
        let (state, conflict) := project op (listMsgEvents (g.events ++ [ev]) ev.key)
        some (g, .holding ev op (.projected state conflict))
      else some (g.release ev stage, .ended)
    | .projected state conflict =>
      if o.ok then some (g, .holding ev op (.updated state conflict))
      else some (g.release ev stage, .ended)
    | .updated state conflict =>
      if o.effective then
        some (((g.commit ev state conflict).release ev stage).record ev, .ended)
      else some (g.release ev stage, .ended)
  | .ended => none

/-- What can begin: an operation is admitted, or a report is taken up for a stored one. -/
inductive Begin where
  | admitted (key : Key) (mid recipient : String) (createdAt : Int)
  | report (key : Key) (r : Report) (time : Nat)

def begin (g : MsgStore) : Begin → Option (MsgStore × Adding)
  | .admitted key mid recipient createdAt =>
    match g.ops key with
    | some _ => none
    | none => some (g.admitted key mid recipient createdAt, .ended)
  | .report key r time =>
    match g.ops key with
    | none => none
    | some op =>
      (r.evidence key op).map fun x =>
        (g, .waiting (newEvent digest key op x "" time) (op.operation key))

/-- The calls of all replicas on the store. -/
def evidenceProgram : Program MsgStore Adding Begin Outcome where
  start := begin digest
  perform := addMsgOpEvent

/-- Nothing has been submitted. -/
def MsgStore.empty : MsgStore := ⟨fun _ => none, [], fun _ => false, [], []⟩

theorem validV7_eventIDFor (digest : Digest) (key : Key) (createdAt : Int) (kind : Kind)
    (eventClass : EventClass) (reason : String) :
    validV7 (eventIDFor digest key createdAt kind eventClass reason) := by
  have hversion : ∀ b : UInt8, (0x70 ||| (b &&& 0x0F)) >>> 4 = 7 := forall_byte (by decide +kernel)
  have hvariant : ∀ b : UInt8, (0x80 ||| (b &&& 0x3F)) >>> 6 = 2 := forall_byte (by decide +kernel)
  simp [validV7, eventIDFor, hversion, hvariant]

theorem ackEvidence_allowed {a : Ack} {x : Evidence} {answer : String}
    (h : ackEvidence a = some (x, answer)) :
    (x.kind, x.eventClass, x.authority) ∈ allowedKinds := by
  unfold ackEvidence at h
  split_ifs at h
  all_goals
    cases h
    simp [allowedKinds]

theorem Report.evidence_allowed {key : Key} {op : MsgOp} {r : Report} {x : Evidence}
    (h : r.evidence key op = some x) : (x.kind, x.eventClass, x.authority) ∈ allowedKinds := by
  cases r with
  | ack bridgeID a =>
    simp only [Report.evidence] at h
    split at h
    · cases h
    · obtain ⟨⟨y, answer⟩, hack, rfl⟩ := Option.map_eq_some_iff.1 h
      exact ackEvidence_allowed hack
  | expire | refuse | forward =>
    cases h
    simp [allowedKinds]

def Joins : Prop :=
  e.key.opID = op.opID ∧ (e.kind, e.eventClass, e.authority) ∈ allowedKinds ∧
    validV7 e.eventID = true

theorem Joins.valid {op : Operation} {e : MsgOpEvent} (h : Joins op e) :
    valid op { wire op e with source := some (sourceOf e.authority) } := by
  obtain ⟨hop, hkind, hid⟩ := h
  simp only [Hubmsg.valid, wire, hop, hkind, hid, decide_true, Bool.and_true]

variable {op : Operation} {events : List MsgOpEvent}

theorem eventClass_eq_of_nodup (h : (events.map MsgOpEvent.eventID).Nodup) :
    ∀ e ∈ events.map fun e => { wire op e with source := some (sourceOf e.authority) },
      ∀ e' ∈ events.map fun e => { wire op e with source := some (sourceOf e.authority) },
        e.eventID = e'.eventID → e.eventClass = e'.eventClass := by
  simp only [forall_mem_map]
  intro e he e' he' hid
  have heq : e = e' := inj_on_of_nodup_map h he he' hid
  rw [heq]

theorem mem_classes_of_joins (hjoins : ∀ e ∈ events, Joins op e) (c : EventClass) :
    c ∈ events.map MsgOpEvent.eventClass ↔
      ∃ e ∈ events.map fun e => { wire op e with source := some (sourceOf e.authority) },
        valid op e ∧ e.eventClass = c := by
  simp only [mem_map, exists_exists_and_eq_and]
  constructor
  · rintro ⟨e, he, hc⟩
    exact ⟨e, he, (hjoins e he).valid, hc⟩
  · rintro ⟨e, he, -, hc⟩
    exact ⟨e, he, hc⟩

theorem project_state (hnodup : (events.map MsgOpEvent.eventID).Nodup)
    (hjoins : ∀ e ∈ events, Joins op e) :
    (project op events).1 = strongest (events.map MsgOpEvent.eventClass) :=
  reduce_state (eventClass_eq_of_nodup hnodup) (mem_classes_of_joins hjoins)

theorem project_conflict (hnodup : (events.map MsgOpEvent.eventID).Nodup)
    (hjoins : ∀ e ∈ events, Joins op e) :
    (project op events).2 ↔
      .completed ∈ events.map MsgOpEvent.eventClass ∧
        .failed ∈ events.map MsgOpEvent.eventClass :=
  reduce_conflict (eventClass_eq_of_nodup hnodup) (mem_classes_of_joins hjoins)

end MeshsatHub.Hubmsg
