import Mathlib
import MeshsatHub.Foundations.Calendar

/-!
# Digests of audit entries

The first digest of an audit row binds neither the tenant nor the id nor the time; the second binds
all fields (`computeHashV2_inj`). A text is its bytes, a time is in microseconds. The results that
rest on SHA-256 take its injectivity as a hypothesis.
-/

namespace MeshsatHub.Audit
open Calendar Numerals List

abbrev Bytes := List UInt8

def ascii (s : String) : Bytes := s.toList.map fun c => c.toNat.toUInt8

structure AuditEntry where
  id : Bytes
  action : Bytes
  actor : Bytes
  detail : Bytes
  ip : Bytes
  prevHash : Bytes
  hash : Bytes
  hashVersion : Int
  createdAt : Int
  deriving DecidableEq

section

def hexDigit (i : Nat) : UInt8 := if i < 10 then (48 + i).toUInt8 else (87 + i).toUInt8

def hexEncode (bytes : Bytes) : Bytes := bytes.flatMap fun x => fixedWidth 16 hexDigit 2 x.toNat

theorem distinct_hexDigit : Distinct 16 hexDigit := by
  unfold Distinct
  decide

theorem hexEncode_injective : Function.Injective hexEncode := by
  intro x
  induction x with intro y h
  | nil =>
    cases y with
    | nil => rfl
    | cons b y => cases h
  | cons a x ih =>
    cases y with
    | nil => cases h
    | cons b y =>
      obtain ⟨hfirst, hrest⟩ := append_inj h (by simp)
      have hbyte : a.toNat = b.toNat := by
        apply fixedWidth_inj (by decide) distinct_hexDigit _ _ hfirst
        · exact a.toNat_lt
        · exact b.toNat_lt
      rw [UInt8.toNat_inj.1 hbyte, ih hrest]

theorem hexEncode_ne_nil {bytes : Bytes} (h : bytes ≠ []) : hexEncode bytes ≠ [] := by
  cases bytes with
  | nil => exact absurd rfl h
  | cons a bytes => exact cons_ne_nil _ _

variable (sha256 : Bytes → Bytes)

/-- `|` -/
def bar : UInt8 := 124

/-- The five fields of the first digest, joined by bars. -/
def joined (e : AuditEntry) : Bytes :=
  e.action ++ bar :: (e.actor ++ bar :: (e.detail ++ bar :: (e.ip ++ bar :: e.prevHash)))

def computeHash (e : AuditEntry) : Bytes := hexEncode (sha256 (joined e))

variable (tenantID : Bytes) (e : AuditEntry)

/-- The nine fields of the second digest. -/
def boundFields : List Bytes :=
  [ascii "v2", tenantID, e.id, timeText e.createdAt, e.action, e.actor, e.detail, e.ip, e.prevHash]

/-- Each field behind its length: `%d:%s;`. -/
def framed : Bytes :=
  fields 10 digit 58 59 (boundFields tenantID e)

def computeHashV2 : Bytes :=
  hexEncode (sha256 (framed tenantID e))

end

variable {sha256 : Bytes → Bytes} {tenantID tenantID' : Bytes} {e e' : AuditEntry}
  {table : List (Bytes × Bytes)}

theorem digit_ne_colon (i : Nat) (hi : i < 10) : digit i ≠ 58 := by
  revert i
  decide

theorem framed_inj (h : framed tenantID e = framed tenantID' e') :
    boundFields tenantID e = boundFields tenantID' e' :=
  fields_injective (by decide) distinct_digit digit_ne_colon h

theorem computeHashV2_inj (hsha : Function.Injective sha256)
    (h : computeHashV2 sha256 tenantID e = computeHashV2 sha256 tenantID' e') :
    tenantID = tenantID' ∧ e = { e' with hash := e.hash, hashVersion := e.hashVersion } := by
  have hfields := framed_inj (hsha (hexEncode_injective h))
  simp only [boundFields, cons.injEq, and_true, true_and] at hfields
  obtain ⟨htenant, hid, htime, haction, hactor, hdetail, hip, hprev⟩ := hfields
  refine ⟨htenant, ?_⟩
  obtain ⟨id, action, actor, detail, ip, prevHash, hash, hashVersion, createdAt⟩ := e
  obtain rfl := timeText_injective htime
  subst hid haction hactor hdetail hip hprev
  rfl

theorem length_joined_lt (tenantID : Bytes) (e : AuditEntry) :
    (joined e).length < (framed tenantID e).length := by
  have hfield (f : Bytes) : f.length + 3 ≤ (field 10 digit 58 59 f).length := length_field f
  have haction := hfield e.action
  have hactor := hfield e.actor
  have hdetail := hfield e.detail
  have hip := hfield e.ip
  have hprev := hfield e.prevHash
  simp only [joined, framed, fields, boundFields, flatMap_cons, flatMap_nil,
    length_append, length_cons, length_nil]
  omega

theorem computeHash_ne_computeHashV2 (hsha : Function.Injective sha256) (tenantID : Bytes)
    (e : AuditEntry) : computeHash sha256 e ≠ computeHashV2 sha256 tenantID e := by
  intro h
  have hlength := length_joined_lt tenantID e
  rw [hsha (hexEncode_injective h)] at hlength
  exact Nat.lt_irrefl _ hlength

/-- A function on texts given by a table; where the table says nothing, a zero is put
in front. -/
def tabulated (table : List (Bytes × Bytes)) (x : Bytes) : Bytes :=
  match table.find? (·.1 == x) with
  | none => 0 :: x
  | some entry => entry.2

theorem tabulated_injective (hvalues : (table.map Prod.snd).Nodup)
    (hzero : ∀ d ∈ table, d.2.head? ≠ some 0) : Function.Injective (tabulated table) := by
  intro x y h
  unfold tabulated at h
  cases hx : table.find? (·.1 == x) with
  | none =>
    cases hy : table.find? (·.1 == y) with simp only [hx, hy] at h
    | none => exact (cons.inj h).2
    | some d => exact absurd (congrArg head? h).symm (hzero d (mem_of_find?_eq_some hy))
  | some c =>
    have hc := mem_of_find?_eq_some hx
    cases hy : table.find? (·.1 == y) with simp only [hx, hy] at h
    | none => exact absurd (congrArg head? h) (hzero c hc)
    | some d =>
      have hsame := inj_on_of_nodup_map hvalues hc (mem_of_find?_eq_some hy) h
      have hcx : (c.1 == x) := by simpa using find?_some hx
      have hdy : (d.1 == y) := by simpa using find?_some hy
      calc x = c.1 := (eq_of_beq hcx).symm
        _ = d.1 := by rw [hsame]
        _ = y := eq_of_beq hdy

theorem tabulated_ne_nil (hvalues : ∀ d ∈ table, d.2 ≠ [])
    (x : Bytes) : tabulated table x ≠ [] := by
  unfold tabulated
  split
  · exact cons_ne_nil 0 x
  case h_2 entry hfind => exact hvalues entry (mem_of_find?_eq_some hfind)

def acme : Bytes := ascii "t_acme"

def firstRow : AuditEntry where
  id := ascii "aud-1700000000000000000-0a1b2c3d"
  action := ascii "bridge_provision"
  actor := ascii "ops@acme.example"
  detail := ascii "bridge=b1"
  ip := ascii "10.0.0.7"
  prevHash := []
  hash := ascii "339ee0811589831c2695b89332084e8f68364701603adf88bc88e3f54ff87d55"
  hashVersion := 2
  createdAt := 1700000000000000

/-- The row behind it, written a microsecond later. -/
def secondRow : AuditEntry where
  id := ascii "aud-1700000000000001000-4e5f6071"
  action := ascii "sos_run_start"
  actor := ascii "bridge:b1"
  detail := ascii "state=active"
  ip := []
  prevHash := firstRow.hash
  hash := ascii "80dd7ac8c94cdd2aa71c82d7ce4f9e910d73559eb14365dd46055773e980e118"
  hashVersion := 2
  createdAt := 1700000000000001

def sampleSHA256 : Bytes → Bytes :=
  tabulated
    [(framed acme firstRow,
      [51, 158, 224, 129, 21, 137, 131, 28, 38, 149, 184, 147, 50, 8, 78, 143, 104, 54, 71, 1, 96,
        58, 223, 136, 188, 136, 227, 245, 79, 248, 125, 85]),
    (framed acme secondRow,
      [128, 221, 122, 200, 201, 76, 221, 42, 167, 28, 130, 215, 206, 79, 158, 145, 13, 115, 85,
        158, 177, 67, 101, 221, 70, 5, 87, 115, 233, 128, 225, 24])]

theorem sampleSHA256_injective : Function.Injective sampleSHA256 := by
  apply tabulated_injective
  · decide
  · simp

theorem sampleSHA256_ne_nil (x : Bytes) : sampleSHA256 x ≠ [] := by
  apply tabulated_ne_nil
  simp

end MeshsatHub.Audit
