import MeshsatHub.Foundations.Histories
import MeshsatHub.Foundations.Strings
import MeshsatHub.Hubmsg.Events

/-!
# Admitting an operation, and pruning old ones

A submission is looked up under its key and admitted in one transaction (`AdmitMsgOp`) that enters
the sender's mid and the operation; every replica deletes old operations and the mids that none uses
(`PruneMsgOps`). A statement is one step under READ COMMITTED. What a transaction has not committed
is in `inserting` and `deleting`; who meets such a row waits. A commit can take effect and be
reported as failed. The content digest is a parameter.
-/

namespace MeshsatHub.Hubmsg
open Interleaving Strings

structure Submission where
  v : Int
  opID : String
  mid : String
  /-- The field `to`. -/
  recipient : String
  contentType : String
  midExpiresAt : Int
  expiresAt : Int
  contentSHA256 : String
  body : String

def hexValue (c : Char) : Option Nat :=
  if '0' ≤ c ∧ c ≤ '9' then some (c.toNat - 48)
  else if 'a' ≤ c ∧ c ≤ 'f' then some (c.toNat - 87)
  else none

def hexBytes : List Char → Option (List UInt8)
  | [] => some []
  | [_] => none
  | c :: d :: rest => do
      let high ← hexValue c
      let low ← hexValue d
      let bytes ← hexBytes rest
      return UInt8.ofNat (16 * high + low) :: bytes

/-- The bytes of a UUID in lower case with its four dashes. -/
def parseCanonical (s : String) : Option UUID :=
  let cs := s.toList
  if cs.length = 36 ∧ cs[8]? = some '-' ∧ cs[13]? = some '-' ∧ cs[18]? = some '-' ∧
      cs[23]? = some '-' then
    (hexBytes (cs.take 8 ++ (cs.drop 9).take 4 ++ (cs.drop 14).take 4 ++ (cs.drop 19).take 4 ++
      cs.drop 24)).bind fun bytes =>
        if h : bytes.length = 16 then some ⟨bytes.toArray, by simpa using h⟩ else none
  else none

/-- `IDValid` of an `op_id` or a `mid` that a bridge submits: the exceptions from version 7 need
a context that it does not have. -/
def idValid (s : String) : Bool := (parseCanonical s).any validV7

def contentTypeText : String := "text/plain;charset=utf-8"

def maxBody : Nat := 16 * 1024

def bridgeOf (principal : String) : String :=
  if startsWith principal "bridge:" then
    let id := trimStart principal "bridge:"
    if id.toList.any (fun c => c = '/' ∨ c = '+' ∨ c = '#') then "" else id
  else ""

/-- The digest over `mid`, `to`, `content_type`, `mid_expires_at` and `body`. -/
abbrev ContentDigest := String → String → String → Int → String → Option String

variable (contentSHA256 : ContentDigest)

def Submission.check (s : Submission) : Option String :=
  if ¬ idValid s.opID ∨ ¬ idValid s.mid then some "bad_id"
  else if contentSHA256 s.mid s.recipient s.contentType s.midExpiresAt s.body ≠
      some s.contentSHA256 then some "digest_mismatch"
  else if s.expiresAt > s.midExpiresAt then some "bad_expiry"
  else if s.v ≠ 1 then some "bad_version"
  else if bridgeOf s.recipient = "" then some "bad_recipient"
  else if s.contentType ≠ contentTypeText then some "bad_content_type"
  else if s.body.utf8ByteSize > maxBody then some "too_large"
  else none

/-- What is read of a row of `msg_operations`. -/
structure OpRow where
  key : Key
  mid : String
  recipient : String
  expiresAt : Int
  contentSHA256 : String
  deriving DecidableEq

structure MidKey where
  tenantID : String
  sender : String
  mid : String
  deriving DecidableEq

def OpRow.midKey (o : OpRow) : MidKey := ⟨o.key.tenantID, o.key.sender, o.mid⟩

structure MidRow where
  key : MidKey
  contentSHA256 : String
  createdAt : Int

def Submission.row (s : Submission) (tenant sender : String) : OpRow :=
  ⟨⟨tenant, sender, s.opID⟩, s.mid, s.recipient, s.expiresAt, s.contentSHA256⟩

inductive Verdict where
  | admitted
  | replay
  | refused (reason : String)

def sameImmutable (o op : OpRow) : Bool :=
  o.recipient = op.recipient && o.mid = op.mid && o.contentSHA256 = op.contentSHA256 &&
    o.expiresAt = op.expiresAt

def repeatVerdict (o op : OpRow) : Verdict :=
  if sameImmutable o op then .replay else .refused "op_conflict"

/-- What has happened, for the account of it. -/
inductive Decided where
  | admitted (key : Key)
  | pruned (keys : List Key)
  deriving DecidableEq

structure AdmissionStore where
  /-- The bridges of the tenants. -/
  bridges : List (String × String)
  ops : List OpRow
  mids : List MidRow
  insertingOps : List Key
  insertingMids : List MidKey
  deletingOps : List Key
  deletingMids : List MidKey
  log : List Decided

variable (g : AdmissionStore)

def AdmissionStore.opKeys : List Key := g.ops.map OpRow.key

def AdmissionStore.midKeys : List MidKey := g.mids.map MidRow.key

def getMsgOp (key : Key) : Option OpRow := g.ops.find? fun o => o.key = key

/-- How far the transaction of an admission has come. `own` tells whether the row of the index
is its own insert. -/
inductive AdmitStage where
  | begun
  | keyed
  | indexed (own : Bool)
  | matched (own : Bool)
  | inserted (own : Bool)

/-- How far a prune has come, with the rows it has deleted. -/
inductive PruneStage where
  | begun
  | opsDeleted (keys : List Key)
  | midsDeleted (keys : List Key) (mids : List MidKey)

/-- A call of `Submit` or of `PruneMsgOps`. -/
inductive Deciding where
  /-- `GetMsgOp` is next; `createdAt` is the time of the store for a new row of the index. -/
  | looking (op : OpRow) (now createdAt : Int)
  /-- Whether the recipient is known is next. -/
  | asking (op : OpRow) (createdAt : Int)
  | admitting (op : OpRow) (createdAt : Int) (stage : AdmitStage)
  /-- `GetMsgOp` after another replica has stored the key. -/
  | rereading (op : OpRow)
  | answered (v : Verdict)
  /-- An error; nothing was decided. -/
  | undecided
  | pruning (cutoff : Int) (stage : PruneStage)
  | pruned

def Deciding.ownMid : Deciding → Option MidKey
  | .admitting op _ (.indexed true) => some op.midKey
  | .admitting op _ (.matched true) => some op.midKey
  | .admitting op _ (.inserted true) => some op.midKey
  | _ => none

/-- The operation that a call has inserted and not committed. -/
def Deciding.ownOp : Deciding → Option Key
  | .admitting op _ (.inserted _) => some op.key
  | _ => none

/-- The operations that a call has deleted and not committed. -/
def Deciding.deletedOps : Deciding → List Key
  | .pruning _ (.opsDeleted keys) => keys
  | .pruning _ (.midsDeleted keys _) => keys
  | _ => []

def Deciding.deletedMids : Deciding → List MidKey
  | .pruning _ (.midsDeleted _ mids) => mids
  | _ => []

/-- A transaction ends, and with it the claim on the rows it has written. -/
def AdmissionStore.release (l : Deciding) : AdmissionStore :=
  { g with
    insertingOps := g.insertingOps.filter fun k => l.ownOp ≠ some k
    insertingMids := g.insertingMids.filter fun k => l.ownMid ≠ some k
    deletingOps := g.deletingOps.filter fun k => k ∉ l.deletedOps
    deletingMids := g.deletingMids.filter fun k => k ∉ l.deletedMids }

/-- The operation is stored, and its mid where the transaction has inserted it. -/
def AdmissionStore.commitOp (op : OpRow) (createdAt : Int) (own : Bool) : AdmissionStore :=
  { g with
    ops := g.ops ++ [op]
    mids := if own then g.mids ++ [⟨op.midKey, op.contentSHA256, createdAt⟩] else g.mids }

/-- The deleted rows are gone. -/
def AdmissionStore.commitPrune (keys : List Key) (mids : List MidKey) : AdmissionStore :=
  { g with
    ops := g.ops.filter fun o => o.key ∉ keys
    mids := g.mids.filter fun m => m.key ∉ mids
    log := g.log ++ [.pruned keys] }

def AdmissionStore.note (d : Decided) : AdmissionStore :=
  { g with log := g.log ++ [d] }

variable (cutoff : Int)

/-- The operations past their retention. -/
def expiredOps : List Key :=
  (g.ops.filter fun o => o.expiresAt < cutoff).map OpRow.key

/-- The old mids that no operation uses but those that the transaction has deleted. -/
def unusedMids (keys : List Key) : List MidKey :=
  (g.mids.filter fun m => m.createdAt < cutoff ∧
    ¬ g.ops.any fun o => o.key ∉ keys ∧ o.midKey = m.key).map MidRow.key

/-- The next statement of `AdmitMsgOp`. -/
def admitMsgOp (op : OpRow) (createdAt : Int) (stage : AdmitStage)
    (o : Outcome) : Option (AdmissionStore × Deciding) :=
  let l := Deciding.admitting op createdAt stage
  match stage with
  | .begun =>
    if o.ok then
      match getMsgOp g op.key with
      | some existing => some (g, .answered (repeatVerdict existing op))
      | none => some (g, .admitting op createdAt .keyed)
    else some (g, .undecided)
  | .keyed =>
    if ¬ o.ok then some (g, .undecided)
    else if op.midKey ∈ g.insertingMids ∨ op.midKey ∈ g.deletingMids then none
    else if op.midKey ∈ g.midKeys then some (g, .admitting op createdAt (.indexed false))
    else
      some ({ g with insertingMids := g.insertingMids ++ [op.midKey] },
        .admitting op createdAt (.indexed true))
  | .indexed own =>
    if o.ok then
      let digest :=
        if own then some op.contentSHA256
        else (g.mids.find? fun m => m.key = op.midKey).map MidRow.contentSHA256
      match digest with
      | none => some (g.release l, .undecided)
      | some digest =>
        if digest = op.contentSHA256 then some (g, .admitting op createdAt (.matched own))
        else some (g.release l, .answered (.refused "mid_conflict"))
    else some (g.release l, .undecided)
  | .matched own =>
    if ¬ o.ok then some (g.release l, .undecided)
    else if op.key ∈ g.insertingOps ∨ op.key ∈ g.deletingOps then none
    else if op.key ∈ g.opKeys then some (g.release l, .rereading op)
    else
      some ({ g with insertingOps := g.insertingOps ++ [op.key] },
        .admitting op createdAt (.inserted own))
  | .inserted own =>
    if o.ok then
      some (((g.commitOp op createdAt own).release l).note (.admitted op.key),
        .answered .admitted)
    else if o.effective then some ((g.commitOp op createdAt own).release l, .undecided)
    else some (g.release l, .undecided)

/-- The next statement of `PruneMsgOps`. -/
def pruneMsgOps (stage : PruneStage) (o : Outcome) : Option (AdmissionStore × Deciding) :=
  let l := Deciding.pruning cutoff stage
  match stage with
  | .begun =>
    let keys := expiredOps g cutoff
    if ¬ o.ok then some (g, .pruned)
    else if keys.any (· ∈ g.deletingOps) then none
    else
      some ({ g with deletingOps := g.deletingOps ++ keys }, .pruning cutoff (.opsDeleted keys))
  | .opsDeleted keys =>
    let mids := unusedMids g cutoff keys
    if ¬ o.ok then some (g.release l, .pruned)
    else if mids.any (· ∈ g.deletingMids) then none
    else
      some ({ g with deletingMids := g.deletingMids ++ mids },
        .pruning cutoff (.midsDeleted keys mids))
  | .midsDeleted keys mids =>
    if o.effective then some ((g.commitPrune keys mids).release l, .pruned)
    else some (g.release l, .pruned)

def decideNext (l : Deciding) (o : Outcome) : Option (AdmissionStore × Deciding) :=
  match l with
  | .looking op now createdAt =>
    if o.ok then
      match getMsgOp g op.key with
      | some existing => some (g, .answered (repeatVerdict existing op))
      | none =>
        if now > op.expiresAt then some (g, .answered (.refused "expired_at_hub"))
        else some (g, .asking op createdAt)
    else some (g, .undecided)
  | .asking op createdAt =>
    if o.ok then
      if (op.key.tenantID, bridgeOf op.recipient) ∈ g.bridges then
        some (g, .admitting op createdAt .begun)
      else some (g, .answered (.refused "refused_unknown_recipient"))
    else some (g, .undecided)
  | .admitting op createdAt stage => admitMsgOp g op createdAt stage o
  | .rereading op =>
    if o.ok then
      match getMsgOp g op.key with
      | some existing => some (g, .answered (repeatVerdict existing op))
      | none => some (g, .undecided)
    else some (g, .undecided)
  | .pruning cutoff stage => pruneMsgOps g cutoff stage o
  | .answered _ => none
  | .undecided => none
  | .pruned => none

inductive Deed where
  | submit (tenant bridgeID : String) (s : Submission) (now createdAt : Int)
  | prune (cutoff : Int)
  | bridges (bridges : List (String × String))

def beginDeciding (g : AdmissionStore) : Deed → Option (AdmissionStore × Deciding)
  | .submit tenant bridgeID s now createdAt =>
    match s.check contentSHA256 with
    | some reason => some (g, .answered (.refused reason))
    | none => some (g, .looking (s.row tenant (principal bridgeID)) now createdAt)
  | .prune cutoff => some (g, .pruning cutoff .begun)
  | .bridges bridges => some ({ g with bridges }, .pruned)

/-- The submissions and prunes of all replicas on the store. -/
def admissionProgram : Program AdmissionStore Deciding Deed Outcome where
  start := beginDeciding contentSHA256
  perform := decideNext

def AdmissionStore.empty : AdmissionStore := ⟨[], [], [], [], [], [], [], []⟩

end MeshsatHub.Hubmsg
