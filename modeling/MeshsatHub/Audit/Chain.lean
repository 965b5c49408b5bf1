import MeshsatHub.Audit.Digest

/-!
# The audit chain

`VerifyChain` walks a tenant's rows from the oldest one on. The oldest may name any digest, since
retention cuts the head of the chain, and a row of the first version is refused behind one of the
second.
-/

namespace MeshsatHub.Audit
open List Option

section Verify
variable (sha256 : Bytes → Bytes) (tenantID : Bytes)

/-- The digest a row has to carry, if its version is one that may stand here. -/
def expectedHash (seenV2 : Bool) (e : AuditEntry) : Option Bytes :=
  if e.hashVersion = 1 then
    if seenV2 then none else some (computeHash sha256 e)
  else if e.hashVersion = 2 then some (computeHashV2 sha256 tenantID e)
  else none

/-- The walk from a row on: the number of rows verified, and the row that broke it. -/
def verifyFrom (prevHash : Bytes) (seenV2 : Bool) (verified : Nat) :
    List AuditEntry → Nat × Option AuditEntry
  | [] => (verified, none)
  | e :: rest =>
    if e.prevHash ≠ prevHash then (verified, some e)
    else if some e.hash ≠ expectedHash sha256 tenantID seenV2 e then (verified, some e)
    else verifyFrom e.hash (seenV2 || e.hashVersion == 2) (verified + 1) rest

/-- The rows come newest first, as `ListAuditEntries` answers them. -/
def verifyChain (listed : List AuditEntry) : Nat × Option AuditEntry :=
  let entries := listed.reverse
  verifyFrom sha256 tenantID (entries.head?.elim [] (·.prevHash)) false 0 entries

def Accepted (rows : List AuditEntry) : Prop :=
  (verifyChain sha256 tenantID rows.reverse).2 = none

instance (rows : List AuditEntry) : Decidable (Accepted sha256 tenantID rows) :=
  inferInstanceAs (Decidable (_ = none))

end Verify

variable {sha256 : Bytes → Bytes} {tenantID : Bytes} {rows : List AuditEntry} {e : AuditEntry}
variable {prevHash : Bytes} {seenV2 : Bool} {verified : Nat}

theorem verifyFrom_cons_eq_none :
    (verifyFrom sha256 tenantID prevHash seenV2 verified (e :: rows)).2 = none ↔
      e.prevHash = prevHash ∧ expectedHash sha256 tenantID seenV2 e = some e.hash ∧
        (verifyFrom sha256 tenantID e.hash (seenV2 || e.hashVersion == 2) (verified + 1) rows).2 =
          none := by
  rw [verifyFrom]
  split
  case isTrue hlink => simp [hlink]
  case isFalse hlink =>
    split
    case isTrue hhash => simp [Ne.symm hhash]
    case isFalse hhash => simp [not_not.1 hlink, (not_not.1 hhash).symm]

theorem accepted_iff : Accepted sha256 tenantID rows ↔
      (verifyFrom sha256 tenantID (rows.head?.elim [] (·.prevHash)) false 0 rows).2 = none := by
  rw [Accepted, verifyChain, reverse_reverse]

theorem expectedHash_of_verifyFrom
    (h : (verifyFrom sha256 tenantID prevHash seenV2 verified rows).2 = none) (he : e ∈ rows) :
    ∃ seen, expectedHash sha256 tenantID seen e = some e.hash := by
  induction rows generalizing prevHash seenV2 verified with
  | nil => cases he
  | cons d rows ih =>
    obtain ⟨-, hhash, hrest⟩ := verifyFrom_cons_eq_none.1 h
    obtain rfl | he := mem_cons.1 he
    · exact ⟨seenV2, hhash⟩
    · exact ih hrest he

theorem ne_one_of_verifyFrom (h : (verifyFrom sha256 tenantID prevHash true verified rows).2 = none)
    (he : e ∈ rows) : e.hashVersion ≠ 1 := by
  induction rows generalizing prevHash verified with
  | nil => cases he
  | cons d rows ih =>
    obtain ⟨-, hhash, hrest⟩ := verifyFrom_cons_eq_none.1 h
    obtain rfl | he := mem_cons.1 he
    · intro hone
      simp [expectedHash, hone] at hhash
    · exact ih hrest he

section
variable (h : (verifyFrom sha256 tenantID prevHash seenV2 verified rows).2 = none)
include h

theorem pairwise_of_verifyFrom :
    rows.Pairwise fun e f => ¬(e.hashVersion = 2 ∧ f.hashVersion = 1) := by
  induction rows generalizing prevHash seenV2 verified with
  | nil => exact Pairwise.nil
  | cons d rows ih =>
    obtain ⟨-, -, hrest⟩ := verifyFrom_cons_eq_none.1 h
    refine pairwise_cons.2 ⟨?_, ih hrest⟩
    rintro f hf ⟨htwo, hone⟩
    have hseen : (seenV2 || d.hashVersion == 2) := by simp [htwo]
    rw [hseen] at hrest
    exact ne_one_of_verifyFrom hrest hf hone

theorem isChain_of_verifyFrom : rows.IsChain fun d e => e.prevHash = d.hash := by
  induction rows generalizing prevHash seenV2 verified with
  | nil => exact IsChain.nil
  | cons d rows ih =>
    obtain ⟨-, -, hrest⟩ := verifyFrom_cons_eq_none.1 h
    cases rows with
    | nil => exact List.IsChain.singleton d
    | cons e rows =>
      have hlink := (verifyFrom_cons_eq_none.1 hrest).1
      exact isChain_cons_cons.2 ⟨hlink, ih hrest⟩

end

theorem hash_of_expected_two {seen : Bool} (htwo : e.hashVersion = 2)
    (h : expectedHash sha256 tenantID seen e = some e.hash) :
    e.hash = computeHashV2 sha256 tenantID e := by
  simp only [expectedHash, htwo] at h
  exact (some.inj h).symm

/-- Rows of the second version, newest first, each naming the digest of the next. -/
structure Sound (sha256 : Bytes → Bytes) (tenantID : Bytes) (listed : List AuditEntry) : Prop where
  version : ∀ e ∈ listed, e.hashVersion = 2
  hash : ∀ e ∈ listed, e.hash = computeHashV2 sha256 tenantID e
  linked : listed.IsChain fun e d => e.prevHash = d.hash

variable {listed listed' : List AuditEntry} {d : AuditEntry}

theorem Sound.tail (h : Sound sha256 tenantID (e :: listed)) : Sound sha256 tenantID listed :=
  ⟨fun d hd => h.version d (mem_cons_of_mem e hd),
    fun d hd => h.hash d (mem_cons_of_mem e hd), h.linked.tail⟩

theorem Sound.of_accepted (hversion : ∀ e ∈ rows, e.hashVersion = 2)
    (h : Accepted sha256 tenantID rows) : Sound sha256 tenantID rows.reverse := by
  rw [accepted_iff] at h
  refine ⟨fun e he => hversion e (mem_reverse.1 he), ?_, ?_⟩
  · intro e he
    have he := mem_reverse.1 he
    obtain ⟨seen, hexpected⟩ := expectedHash_of_verifyFrom h he
    exact hash_of_expected_two (hversion e he) hexpected
  · exact isChain_reverse.2 (isChain_of_verifyFrom h)

theorem eq_of_hash_eq (hsha : Function.Injective sha256) (hd : Sound sha256 tenantID (d :: listed))
    (he : Sound sha256 tenantID (e :: listed')) (hhash : d.hash = e.hash) : d = e := by
  have hdigests : computeHashV2 sha256 tenantID d = computeHashV2 sha256 tenantID e := by
    rw [← hd.hash d (by simp), ← he.hash e (by simp), hhash]
  have heq := (computeHashV2_inj hsha hdigests).2
  rw [heq, hhash, hd.version d (by simp), ← he.version e (by simp)]

theorem Sound.prefix_of_hash_eq (hsha : Function.Injective sha256)
    (hd : Sound sha256 tenantID (d :: listed)) (he : Sound sha256 tenantID (e :: listed'))
    (hhash : d.hash = e.hash) :
    (d :: listed) <+: (e :: listed') ∨ (e :: listed') <+: (d :: listed) := by
  induction listed generalizing d e listed' with obtain rfl := eq_of_hash_eq hsha hd he hhash
  | nil => exact .inl (prefix_append [d] listed')
  | cons d' listed ih =>
    cases listed' with
    | nil => exact .inr (prefix_append [d] (d' :: listed))
    | cons e' listed' =>
      -- both next rows carry the digest that this one names
      have hnext : d'.hash = e'.hash := (isChain_cons_cons.1 hd.linked).1.symm.trans
          (isChain_cons_cons.1 he.linked).1
      obtain h | h := ih hd.tail he.tail hnext
      · exact .inl (cons_prefix_cons.2 ⟨rfl, h⟩)
      · exact .inr (cons_prefix_cons.2 ⟨rfl, h⟩)

/-- Two accepted lists of rows of the second version with the same newest digest are
the same rows, as far back as the shorter one goes; a row of the first version behind
one of the second is not accepted, nor is a row that carries its digest for another
tenant, or, in the second version, the digest of any row of another tenant. -/
theorem chain_tamper_evident (hsha : Function.Injective sha256) (tenantID : Bytes) :
    (∀ (rows rows' : List AuditEntry) (newest newest' : AuditEntry),
      (∀ e ∈ rows, e.hashVersion = 2) → (∀ e ∈ rows', e.hashVersion = 2) →
      Accepted sha256 tenantID rows → Accepted sha256 tenantID rows' →
      rows.getLast? = some newest → rows'.getLast? = some newest' → newest.hash = newest'.hash →
      rows <:+ rows' ∨ rows' <:+ rows) ∧
    (∀ rows, Accepted sha256 tenantID rows →
      rows.Pairwise fun e f => ¬(e.hashVersion = 2 ∧ f.hashVersion = 1)) ∧
    ∀ rows, Accepted sha256 tenantID rows → ∀ e ∈ rows, ∀ other d,
      e.hashVersion = 2 ∨ d = e → e.hash = computeHashV2 sha256 other d → other = tenantID := by
  refine ⟨?_, ?_, ?_⟩
  · intro rows rows' newest newest' hversion hversion' hrows hrows' hlast hlast' hhash
    have hsound := Sound.of_accepted hversion hrows
    have hsound' := Sound.of_accepted hversion' hrows'
    rw [← head?_reverse] at hlast hlast'
    obtain ⟨listed, hlisted⟩ := head?_eq_some_iff.1 hlast
    obtain ⟨listed', hlisted'⟩ := head?_eq_some_iff.1 hlast'
    rw [hlisted] at hsound
    rw [hlisted'] at hsound'
    rw [← reverse_prefix, ← reverse_prefix, hlisted, hlisted']
    exact hsound.prefix_of_hash_eq hsha hsound' hhash
  · exact fun rows hrows => pairwise_of_verifyFrom (accepted_iff.1 hrows)
  · intro rows hrows e he other d hd hother
    obtain ⟨seen, hexpected⟩ := expectedHash_of_verifyFrom (accepted_iff.1 hrows) he
    unfold expectedHash at hexpected
    split at hexpected
    case isTrue hone =>
      -- a row of the first version carries no digest of the second
      split at hexpected
      · cases hexpected
      · obtain rfl : d = e := by
          apply hd.resolve_left
          omega
        have heq := (some.inj hexpected).trans hother
        exact absurd heq (computeHash_ne_computeHashV2 hsha other d)
    case isFalse =>
      split at hexpected
      · have heq := (some.inj hexpected).trans hother
        exact (computeHashV2_inj hsha heq).1.symm
      · cases hexpected

/-- A chain of two rows, and the same chain with its head cut. -/
theorem chain_tamper_evident_cutHead :
    Function.Injective sampleSHA256 ∧ Accepted sampleSHA256 acme [firstRow, secondRow] ∧
      Accepted sampleSHA256 acme [secondRow] ∧
      ([firstRow, secondRow] <:+ [secondRow] ∨ [secondRow] <:+ [firstRow, secondRow]) := by
  have hboth : Accepted sampleSHA256 acme [firstRow, secondRow] := by decide +kernel
  have hcut : Accepted sampleSHA256 acme [secondRow] := by decide +kernel
  refine ⟨sampleSHA256_injective, hboth, hcut, ?_⟩
  apply (chain_tamper_evident sampleSHA256_injective acme).1 _ _ secondRow secondRow _ _ hboth hcut
  · rfl
  · rfl
  · rfl
  · decide +kernel
  · decide +kernel

end MeshsatHub.Audit
