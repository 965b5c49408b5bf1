import MeshsatHub.Audit.Chain
import MeshsatHub.Foundations.Interleaving

/-!
# Appending to the audit chain

`Log` takes the tenant's advisory lock, reads the latest row by `created_at`, builds its row on it
and inserts it; retention deletes the rows before a cutoff without the lock. A clock may show
anything. An operation may fail, and a commit may take effect and be reported as failed.
-/

namespace MeshsatHub.Audit
open Calendar Numerals Runs Interleaving

section
variable (sha256 : Bytes → Bytes) (tenantID : Bytes)

/-- What the caller of `Log` reports. -/
structure Report where
  action : Bytes
  actor : Bytes
  detail : Bytes
  ip : Bytes

def unixNano (time : Int) : Int := (time * 1000).bmod (2 ^ 64)

def formatInt (n : Int) : Bytes :=
  if n < 0 then ascii "-" ++ numeral 10 digit n.natAbs else numeral 10 digit n.natAbs

def newEntryID (now : Int) (random : Vector UInt8 4) : Bytes :=
  ascii "aud-" ++ formatInt (unixNano now) ++ ascii "-" ++ hexEncode random.toList

/-- The entry built on the latest one; its time is moved behind the latest one's. -/
def build (report : Report) (now : Nat) (random : Vector UInt8 4) (prev : Option AuditEntry) :
    AuditEntry :=
  let time : Int :=
    match prev with
    | none => now
    | some d => if d.createdAt < now then now else d.createdAt + 1
  let e : AuditEntry :=
    { id := newEntryID time random
      action := report.action
      actor := report.actor
      detail := report.detail
      ip := report.ip
      prevHash := prev.elim [] (·.hash)
      hash := []
      hashVersion := 2
      createdAt := time }
  { e with hash := computeHashV2 sha256 tenantID e }

/-- A tenant's rows, in the order of their commits, and its advisory lock. -/
structure AuditLog where
  rows : List AuditEntry
  locked : Bool

variable (rows : List AuditEntry)

/-- `ORDER BY created_at DESC` -/
def newestFirst : List AuditEntry :=
  rows.insertionSort fun d e => e.createdAt ≤ d.createdAt

def latestAuditEntry : Option AuditEntry := (newestFirst rows).head?

def listAuditEntries (limit : Int) : List AuditEntry :=
  if 0 < limit then (newestFirst rows).take limit.toNat else newestFirst rows

/-- Go's zero time, the first of January of the year 1. -/
def zeroTime : Int := -62135596800000000

/-- What `insertAuditEntry` puts in for an id or a time that was left out. -/
def withDefaults (e : AuditEntry) (now : Nat) : AuditEntry :=
  { e with
    id := if e.id = [] then ascii "aud-" ++ formatInt (unixNano now) else e.id
    createdAt := if e.createdAt = zeroTime then now else e.createdAt }

/-- The unique index on the tenant and `prev_hash` refuses a second child. -/
def forks (e : AuditEntry) : Bool :=
  rows.any fun r => r.prevHash == e.prevHash

def deleteAuditEntriesBefore (cutoff : Int) : List AuditEntry :=
  rows.filter fun r => cutoff ≤ r.createdAt

inductive Answer where
  | done
  | failed
  | refused
  deriving DecidableEq

/-- Where a call of `Log` or of `purgeTenant` stands. -/
inductive Call where
  | waiting (report : Report)
  | reading (report : Report)
  | inserting (e : AuditEntry)
  | committing (e : AuditEntry)
  | archiving (cutoff : Int)
  | deleting (cutoff : Int)
  | returned (answer : Answer)

inductive Op where
  | lock (outcome : Outcome)
  | read (now : Nat) (random : Vector UInt8 4) (outcome : Outcome)
  | insert (now : Nat) (outcome : Outcome)
  | commit (outcome : Outcome)
  | archive (outcome : Outcome)
  | delete (outcome : Outcome)

inductive Begin where
  | log (report : Report)
  | purgeTenant (cutoff : Int) (sink : Bool)

def begin (g : AuditLog) : Begin → Option (AuditLog × Call)
  | .log report => some (g, .waiting report)
  | .purgeTenant cutoff sink => some (g, if sink then .archiving cutoff else .deleting cutoff)

/-- One operation on the database. With a failed one the transaction of an append
is rolled back, which releases the lock. -/
def perform (g : AuditLog) : Call → Op → Option (AuditLog × Call)
  | .waiting report, .lock outcome =>
    if outcome.ok then
      if g.locked then none else some ({ g with locked := true }, .reading report)
    else some (g, .returned .failed)
  | .reading report, .read now random outcome =>
    if outcome.ok then
      some (g, .inserting (build sha256 tenantID report now random (latestAuditEntry g.rows)))
    else some ({ g with locked := false }, .returned .failed)
  | .inserting e, .insert now outcome =>
    if outcome.ok then
      if forks g.rows (withDefaults e now) then
        some ({ g with locked := false }, .returned .refused)
      else some (g, .committing (withDefaults e now))
    else some ({ g with locked := false }, .returned .failed)
  | .committing e, .commit outcome =>
    some (⟨if outcome.effective then g.rows ++ [e] else g.rows, false⟩,
      .returned (if outcome.ok then .done else .failed))
  | .archiving cutoff, .archive outcome =>
    some (g, if outcome.ok then .deleting cutoff else .returned .failed)
  | .deleting cutoff, .delete outcome =>
    some (if outcome.effective then
        { g with rows := deleteAuditEntriesBefore g.rows cutoff } else g,
      .returned (if outcome.ok then .done else .failed))
  | _, _ => none

def program : Program AuditLog Call Begin Op := ⟨begin, perform sha256 tenantID⟩

def empty : System AuditLog Call := ⟨⟨[], false⟩, []⟩

end

variable {sha256 : Bytes → Bytes} {tenantID : Bytes} {rows rows' : List AuditEntry} {e : AuditEntry}

/-- A row as `Log` builds it: it carries its digest, and follows an earlier row or
none. -/
structure Genuine (sha256 : Bytes → Bytes) (tenantID : Bytes) (e : AuditEntry) : Prop where
  named : e.id ≠ []
  version : e.hashVersion = 2
  hash : e.hash = computeHashV2 sha256 tenantID e
  since1970 : 0 ≤ e.createdAt
  origin : e.prevHash = [] ∨
    ∃ d, e.prevHash = computeHashV2 sha256 tenantID d ∧ d.createdAt < e.createdAt

/-- What is stored is one chain, in the order of the times. -/
structure Chained (sha256 : Bytes → Bytes) (tenantID : Bytes) (rows : List AuditEntry) : Prop where
  genuine : ∀ e ∈ rows, Genuine sha256 tenantID e
  increasing : rows.Pairwise fun d e => d.createdAt < e.createdAt
  linked : rows.IsChain fun d e => e.prevHash = d.hash

structure Fits (sha256 : Bytes → Bytes) (tenantID : Bytes) (rows : List AuditEntry)
    (e : AuditEntry) : Prop where
  genuine : Genuine sha256 tenantID e
  later : ∀ r ∈ rows, r.createdAt < e.createdAt
  link : ∀ d, rows.getLast? = some d → e.prevHash = d.hash
  fresh : ∀ r ∈ rows, r.prevHash ≠ e.prevHash

theorem chained_nil : Chained sha256 tenantID [] where
  genuine := nofun
  increasing := List.Pairwise.nil
  linked := List.IsChain.nil

theorem Chained.append (h : Chained sha256 tenantID rows) (he : Fits sha256 tenantID rows e) :
    Chained sha256 tenantID (rows ++ [e]) := by
  refine ⟨?_, ?_, ?_⟩
  · intro d hd
    obtain hd | hd := List.mem_append.1 hd
    · exact h.genuine d hd
    · exact List.mem_singleton.1 hd ▸ he.genuine
  · rw [List.pairwise_append]
    refine ⟨h.increasing, List.pairwise_singleton _ _, ?_⟩
    intro d hd e' he'
    exact List.mem_singleton.1 he' ▸ he.later d hd
  · rw [List.isChain_append]
    refine ⟨h.linked, List.IsChain.singleton e, ?_⟩
    intro d hd e' he'
    obtain rfl : e = e' := Option.some.inj he'
    exact he.link d hd

theorem Chained.suffix (h : Chained sha256 tenantID rows) (hsuffix : rows' <:+ rows) :
    Chained sha256 tenantID rows' :=
  ⟨fun e he => h.genuine e (hsuffix.subset he), h.increasing.sublist hsuffix.sublist,
    h.linked.suffix hsuffix⟩

theorem Fits.suffix (h : Fits sha256 tenantID rows e) (hsuffix : rows' <:+ rows) :
    Fits sha256 tenantID rows' e := by
  refine ⟨h.genuine, fun r hr => h.later r (hsuffix.subset hr), ?_,
    fun r hr => h.fresh r (hsuffix.subset hr)⟩
  intro d hd
  obtain ⟨front, rfl⟩ := hsuffix
  apply h.link d
  rw [List.getLast?_append, hd]
  rfl

theorem deleteAuditEntriesBefore_suffix (h : rows.Pairwise fun d e => d.createdAt < e.createdAt)
    (cutoff : Int) : deleteAuditEntriesBefore rows cutoff <:+ rows := by
  induction rows with
  | nil => exact List.suffix_refl []
  | cons d rows ih =>
    obtain ⟨hd, hrows⟩ := List.pairwise_cons.1 h
    by_cases hcutoff : cutoff ≤ d.createdAt
    · have hall : deleteAuditEntriesBefore (d :: rows) cutoff = d :: rows := by
        apply List.filter_eq_self.2
        intro e he
        obtain rfl | he := List.mem_cons.1 he
        · exact decide_eq_true hcutoff
        · exact decide_eq_true (hcutoff.trans (hd e he).le)
      rewrite [hall]
      exact List.suffix_refl (d :: rows)
    · have hcut : deleteAuditEntriesBefore (d :: rows) cutoff =
          deleteAuditEntriesBefore rows cutoff := by
        simp [deleteAuditEntriesBefore, hcutoff]
      rw [hcut]
      exact (ih hrows).trans (List.suffix_cons d rows)

theorem orderedInsert_oldest {d : AuditEntry} (h : ∀ r ∈ rows, d.createdAt < r.createdAt) :
    rows.orderedInsert (fun d e => e.createdAt ≤ d.createdAt) d = rows ++ [d] := by
  induction rows with
  | nil => rfl
  | cons r rows ih =>
    have hr : ¬r.createdAt ≤ d.createdAt := not_le.2 (h r (by simp))
    rw [List.orderedInsert_cons, if_neg hr, ih fun r' hr' => h r' (List.mem_cons_of_mem r hr'),
      List.cons_append]

section
variable (h : rows.Pairwise fun d e => d.createdAt < e.createdAt)
include h

theorem newestFirst_eq_reverse : newestFirst rows = rows.reverse := by
  induction rows with
  | nil => rfl
  | cons d rows ih =>
    obtain ⟨hd, hrows⟩ := List.pairwise_cons.1 h
    rw [newestFirst, List.insertionSort_cons, ← newestFirst, ih hrows, List.reverse_cons]
    apply orderedInsert_oldest
    exact fun r hr => hd r (List.mem_reverse.1 hr)

theorem latestAuditEntry_eq : latestAuditEntry rows = rows.getLast? := by
  rw [latestAuditEntry, newestFirst_eq_reverse h, List.head?_reverse]

theorem createdAt_le_getLast {d : AuditEntry} (hd : rows.getLast? = some d) :
    ∀ r ∈ rows, r.createdAt ≤ d.createdAt := by
  obtain ⟨front, rfl⟩ := List.getLast?_eq_some_iff.1 hd
  rw [List.pairwise_append] at h
  intro r hr
  obtain hr | hr := List.mem_append.1 hr
  · exact (h.2.2 r hr d (by simp)).le
  · exact (List.mem_singleton.1 hr ▸ le_refl _)

end

theorem verifyFrom_of_chained (h : Chained sha256 tenantID rows) {prevHash : Bytes}
    (hanchor : ∀ e, rows.head? = some e → e.prevHash = prevHash) (seenV2 : Bool) (verified : Nat) :
    verifyFrom sha256 tenantID prevHash seenV2 verified rows = (verified + rows.length, none) := by
  induction rows generalizing prevHash seenV2 verified with
  | nil => rfl
  | cons e rows ih =>
    have he := h.genuine e (by simp)
    have hexpected : expectedHash sha256 tenantID seenV2 e = some e.hash := by
      simp [expectedHash, he.version, ← he.hash]
    have hrest := h.suffix (List.suffix_cons e rows)
    have hlink : ∀ d, rows.head? = some d → d.prevHash = e.hash := by
      intro d hd
      obtain ⟨rest, rfl⟩ := List.head?_eq_some_iff.1 hd
      exact (List.isChain_cons_cons.1 h.linked).1
    rw [verifyFrom, if_neg (not_not.2 (hanchor e rfl)), if_neg (not_not.2 hexpected.symm),
      ih hrest hlink, List.length_cons]
    congr 1
    omega

theorem verifyChain_of_chained (h : Chained sha256 tenantID rows) :
    verifyChain sha256 tenantID (listAuditEntries rows 0) = (rows.length, none) := by
  have hlisted : listAuditEntries rows 0 = rows.reverse := newestFirst_eq_reverse h.increasing
  rw [hlisted, verifyChain, List.reverse_reverse, verifyFrom_of_chained h, Nat.zero_add]
  intro e he
  rw [he]
  rfl

theorem computeHashV2_ne_nil (hnonempty : ∀ x, sha256 x ≠ []) (e : AuditEntry) :
    computeHashV2 sha256 tenantID e ≠ [] :=
  hexEncode_ne_nil (hnonempty _)

theorem Chained.prevHash_ne (hsha : Function.Injective sha256)
    (hnonempty : ∀ x, sha256 x ≠ []) (h : Chained sha256 tenantID rows) {d : AuditEntry}
    (hd : rows.getLast? = some d) : ∀ r ∈ rows, r.prevHash ≠ d.hash := by
  intro r hr heq
  have hhash := (h.genuine d (List.mem_of_getLast? hd)).hash
  obtain hnil | ⟨q, hq, hlater⟩ := (h.genuine r hr).origin
  · exact computeHashV2_ne_nil hnonempty d (by rw [← hhash, ← heq, hnil])
  · have hdigests : computeHashV2 sha256 tenantID q = computeHashV2 sha256 tenantID d := by
      rw [← hq, heq, hhash]
    have htime : q.createdAt = d.createdAt := by rw [(computeHashV2_inj hsha hdigests).2]
    have hlast := createdAt_le_getLast h.increasing hd r hr
    omega

theorem id_ne_nil (now : Int) (random : Vector UInt8 4) : newEntryID now random ≠ [] := by
  simp [newEntryID, ascii]

/-- What `Log` builds on the latest row fits. -/
theorem fits_build (hsha : Function.Injective sha256) (hnonempty : ∀ x, sha256 x ≠ [])
    (h : Chained sha256 tenantID rows) (report : Report) (now : Nat) (random : Vector UInt8 4) :
    Fits sha256 tenantID rows
      (build sha256 tenantID report now random (latestAuditEntry rows)) := by
  rw [latestAuditEntry_eq h.increasing]
  cases hlast : rows.getLast? with
  | none =>
    obtain rfl := List.getLast?_eq_none_iff.1 hlast
    refine ⟨⟨id_ne_nil _ _, rfl, rfl, ?_, .inl rfl⟩, ?_, ?_, ?_⟩
    · exact Int.natCast_nonneg now
    · exact nofun
    · exact fun d hd => nomatch hd
    · exact nofun
  | some d =>
    have hd := h.genuine d (List.mem_of_getLast? hlast)
    have htime : d.createdAt < (build sha256 tenantID report now random (some d)).createdAt := by
      simp only [build]
      split <;> omega
    refine ⟨⟨id_ne_nil _ _, rfl, rfl, ?_, .inr ⟨d, hd.hash, htime⟩⟩, ?_, ?_, ?_⟩
    · exact hd.since1970.trans htime.le
    · exact fun r hr => (createdAt_le_getLast h.increasing hlast r hr).trans_lt htime
    · rintro d' hd'
      cases hlast ▸ hd'
      rfl
    · exact h.prevHash_ne hsha hnonempty hlast

/-- Nothing is left out of a row that `Log` builds. -/
theorem Genuine.withDefaults_eq (h : Genuine sha256 tenantID e) (now : Nat) :
    withDefaults e now = e := by
  have htime : e.createdAt ≠ zeroTime := by
    have := h.since1970
    unfold zeroTime
    omega
  rw [withDefaults, if_neg h.named, if_neg htime]

theorem Fits.forks_eq_false (h : Fits sha256 tenantID rows e) : forks rows e = false := by
  rw [forks, List.any_eq_false]
  intro r hr
  simpa using h.fresh r hr

def Call.Holds : Call → Prop
  | .reading _ | .inserting _ | .committing _ => True
  | _ => False

def Call.Sound (sha256 : Bytes → Bytes) (tenantID : Bytes) (rows : List AuditEntry) : Call → Prop
  | .inserting e | .committing e => Fits sha256 tenantID rows e
  | .returned answer => answer ≠ .refused
  | _ => True

def Local (sha256 : Bytes → Bytes) (tenantID : Bytes) (g : AuditLog) (l : Call) : Prop :=
  (l.Holds → g.locked = true) ∧ l.Sound sha256 tenantID g.rows

/-- One transaction at a time has the lock. -/
def Apart (l m : Call) : Prop := ¬(l.Holds ∧ m.Holds)

abbrev LogInv (sha256 : Bytes → Bytes) (tenantID : Bytes) : System AuditLog Call → Prop :=
  Inv (fun g => Chained sha256 tenantID g.rows) (Local sha256 tenantID) Apart

instance : Std.Symm Apart := ⟨fun _ _ h hml => h ⟨hml.2, hml.1⟩⟩

theorem Call.Sound.of_not_holds {l : Call} (hl : ¬l.Holds) (h : l.Sound sha256 tenantID rows) :
    l.Sound sha256 tenantID rows' := by
  cases l with
  | inserting e | committing e => exact absurd trivial hl
  | _ => exact h

theorem Call.Sound.suffix {l : Call} (hsuffix : rows' <:+ rows) (h : l.Sound sha256 tenantID rows) :
    l.Sound sha256 tenantID rows' := by
  cases l with
  | inserting e | committing e => exact Fits.suffix h hsuffix
  | _ => exact h

variable {s : System AuditLog Call} {g : AuditLog} {l l' : Call} {i : Nat}

section
variable (h : LogInv sha256 tenantID s) (hi : s.calls[i]? = some l)
include h hi

theorem LogInv.acted_locked (hl : l.Holds) (hrows : Chained sha256 tenantID g.rows)
    (hlocal : Local sha256 tenantID g l') : LogInv sha256 tenantID ⟨g, s.calls.set i l'⟩ := by
  apply h.acted hi hrows hlocal
  intro m _ hm hapart
  have hnot : ¬m.Holds := fun hholds => hapart ⟨hl, hholds⟩
  exact ⟨⟨fun hholds => absurd hholds hnot, hm.2.of_not_holds hnot⟩, fun hboth => hnot hboth.2⟩

theorem LogInv.acted_unlocked (hlocked : g.locked = s.shared.locked)
    (hsuffix : g.rows <:+ s.shared.rows) (hl' : ¬l'.Holds)
    (hsound : l'.Sound sha256 tenantID g.rows) : LogInv sha256 tenantID ⟨g, s.calls.set i l'⟩ := by
  apply h.acted hi (h.shared.suffix hsuffix) ⟨fun hholds => absurd hholds hl', hsound⟩
  intro m _ hm _
  exact ⟨⟨fun hholds => hlocked.trans (hm.1 hholds), hm.2.suffix hsuffix⟩, fun hboth => hl' hboth.1⟩

theorem LogInv.acted_lock (hfree : s.shared.locked = false)
    (hsound : l'.Sound sha256 tenantID s.shared.rows) :
    LogInv sha256 tenantID ⟨⟨s.shared.rows, true⟩, s.calls.set i l'⟩ := by
  have hnobody (m : Call) (hm : Local sha256 tenantID s.shared m) : ¬m.Holds := by
    intro hholds
    rw [hm.1 hholds] at hfree
    cases hfree
  refine h.acted hi ?_ ⟨fun _ => rfl, hsound⟩ ?_
  · exact h.shared
  intro m _ hm _
  exact ⟨⟨fun _ => rfl, hm.2⟩, fun hboth => hnobody m hm hboth.2⟩

end

theorem perform_inv (hsha : Function.Injective sha256) (hnonempty : ∀ x, sha256 x ≠ []) {op : Op}
    (h : LogInv sha256 tenantID s) (hi : s.calls[i]? = some l)
    (hperform : perform sha256 tenantID s.shared l op = some (g, l')) :
    LogInv sha256 tenantID ⟨g, s.calls.set i l'⟩ := by
  have hlocal := h.call hi
  have hgive (rows : List AuditEntry) (answer : Answer) (hanswer : answer ≠ .refused) :
      Local sha256 tenantID ⟨rows, false⟩ (.returned answer) :=
    ⟨fun hholds => hholds.elim, hanswer⟩
  revert hperform
  fun_cases perform sha256 tenantID s.shared l op with
  | case1 | case12 => rintro ⟨⟩
  | case2 _ _ _ hfree =>
    rintro ⟨⟩
    exact h.acted_lock hi (Bool.eq_false_iff.2 hfree) trivial
  | case3 =>
    rintro ⟨⟩
    exact h.acted_unlocked hi rfl (List.suffix_refl _) id (by simp [Call.Sound])
  | case4 report now random =>
    rintro ⟨⟩
    have hfits := fits_build hsha hnonempty h.shared report now random
    exact h.acted_locked hi trivial h.shared ⟨fun _ => hlocal.1 trivial, hfits⟩
  | case5 | case8 =>
    rintro ⟨⟩
    exact h.acted_locked hi trivial h.shared (hgive _ _ (by decide))
  | case6 e now _ _ hforks =>
    rw [hlocal.2.genuine.withDefaults_eq, hlocal.2.forks_eq_false] at hforks
    cases hforks
  | case7 e now =>
    rw [hlocal.2.genuine.withDefaults_eq]
    rintro ⟨⟩
    exact h.acted_locked hi trivial h.shared ⟨fun _ => hlocal.1 trivial, hlocal.2⟩
  | case9 e outcome =>
    rintro ⟨⟩
    refine h.acted_locked hi trivial ?_ (hgive _ _ (by split <;> decide))
    split
    · exact h.shared.append hlocal.2
    · exact h.shared
  | case10 =>
    rintro ⟨⟩
    apply h.acted_unlocked hi rfl (List.suffix_refl _)
    · split <;> exact id
    · split <;> simp [Call.Sound]
  | case11 cutoff outcome =>
    rintro ⟨⟩
    have hsuffix := deleteAuditEntriesBefore_suffix h.shared.increasing cutoff
    apply h.acted_unlocked hi
    · split <;> rfl
    · split
      · exact hsuffix
      · exact List.suffix_refl _
    · exact id
    · show (if outcome.ok then Answer.done else Answer.failed) ≠ .refused
      split <;> decide

theorem step_inv (hsha : Function.Injective sha256) (hnonempty : ∀ x, sha256 x ≠ [])
    {t : System AuditLog Call} {ev : Event Begin Op} (h : LogInv sha256 tenantID s)
    (hstep : step (program sha256 tenantID) s ev = some t) : LogInv sha256 tenantID t := by
  obtain ⟨b, g, l, hbegin⟩ | ⟨i, op, l, g, l', hi, hperform⟩ := step_cases hstep
  · have hidle : g = s.shared ∧ ¬l.Holds ∧ l.Sound sha256 tenantID g.rows := by
      cases b with cases hbegin
      | log report => exact ⟨rfl, id, trivial⟩
      | purgeTenant cutoff sink => cases sink <;> exact ⟨rfl, id, trivial⟩
    obtain ⟨rfl, hholds, hsound⟩ := hidle
    apply h.begun h.shared ⟨fun hl => absurd hl hholds, hsound⟩
    exact fun m _ hm => ⟨hm, fun hboth => hholds hboth.2⟩
  · exact perform_inv hsha hnonempty h hi hperform

/-- In every state that calls of `Log` and purges reach from an empty log, by whatever
clocks: the rows stored are in the order of their times, no append has been refused,
and all rows stored are verified. -/
theorem log_complete (hsha : Function.Injective sha256) (hnonempty : ∀ x, sha256 x ≠ [])
    (tenantID : Bytes) (s : System AuditLog Call)
    (h : Reaches (step (program sha256 tenantID)) (fun _ _ => True) empty s) :
    (s.shared.rows.Pairwise fun d e => d.createdAt < e.createdAt) ∧
      (∀ l ∈ s.calls, l ≠ .returned .refused) ∧
      verifyChain sha256 tenantID (listAuditEntries s.shared.rows 0) =
        (s.shared.rows.length, none) := by
  have hinv : LogInv sha256 tenantID s := by
    apply h.invariant
    · exact Inv.nil chained_nil
    · exact fun s ev t hs _ hstep => step_inv hsha hnonempty hs hstep
  refine ⟨hinv.shared.increasing, ?_, verifyChain_of_chained hinv.shared⟩
  rintro l hl rfl
  exact (hinv.calls _ hl).2 rfl

def purgedInBetween : List (Event Begin Op) :=
  [.start (.log ⟨firstRow.action, firstRow.actor, firstRow.detail, firstRow.ip⟩),
    .act 0 (.lock .done),
    .act 0 (.read 1700000000000000 #v[0x0a, 0x1b, 0x2c, 0x3d] .done),
    .act 0 (.insert 1700000000000000 .done),
    .act 0 (.commit .done),
    .start (.log ⟨secondRow.action, secondRow.actor, secondRow.detail, secondRow.ip⟩),
    .start (.purgeTenant 1700000000000001 true),
    .act 1 (.lock .done),
    .act 1 (.read 1699996400000000 #v[0x4e, 0x5f, 0x60, 0x71] .done),
    .act 2 (.archive .done),
    .act 2 (.delete .done),
    .act 1 (.insert 1699996400000000 .done),
    .act 1 (.commit .unseen)]

theorem log_complete_purgedInBetween :
    ∃ s, Reaches (step (program sampleSHA256 acme)) (fun _ _ => True) empty s ∧
      s.shared.rows = [secondRow] ∧
      (∀ l ∈ s.calls, l ≠ .returned .refused) ∧
      verifyChain sampleSHA256 acme (listAuditEntries s.shared.rows 0) =
        (s.shared.rows.length, none) := by
  exact exists_reaches_and_of_replay purgedInBetween (by decide +kernel) fun s hs =>
    (log_complete sampleSHA256_injective sampleSHA256_ne_nil acme s hs).2

end MeshsatHub.Audit
