import MeshsatHub.Foundations.Bootstrap.Runs

/-!
# The Hub's own keys at startup

The load-or-generate steps after the preflight, in the order of `main`, each a loader over rows of
the system configuration; any number of replicas start and stop over one store. A stored value is
the number of the generation it comes from, and always parses. The identity file is the copy on the
replica's own disk.
-/

namespace MeshsatHub.Startup
open Bootstrap Runs

/-- The rows of the system configuration that hold the Hub's keys. -/
inductive Row where
  | credentialMasterKey
  | bridgeCACert
  | bridgeCAKey
  | directorySigningKey
  | reticulumEncryptionKey
  | reticulumSigningKey
  deriving DecidableEq

/-- A key that could not be stored is used all the same. -/
def bootstrapCredentialMasterKey : Loader Row where
  first := .credentialMasterKey
  second := none
  readOn := false
  writeOn := false
  keeps := true
  copies := false
  distinct := by decide

/-- Both rows are read in any case, and written whether or not a write fails. -/
def bridgeCA : Loader Row where
  first := .bridgeCACert
  second := some .bridgeCAKey
  readOn := true
  writeOn := true
  keeps := true
  copies := false
  distinct := by decide

def loadOrCreateTrustAnchor : Loader Row where
  first := .directorySigningKey
  second := none
  readOn := false
  writeOn := false
  keeps := false
  copies := false
  distinct := by decide

/-- `loadFromDB` and `persistToDB` end at the first error; an identity from the
file is used though it could not be stored. -/
def newHubIdentity : Loader Row where
  first := .reticulumEncryptionKey
  second := some .reticulumSigningKey
  readOn := false
  writeOn := false
  keeps := false
  copies := true
  distinct := by decide

def hubKeys : List (Loader Row) :=
  [bootstrapCredentialMasterKey, bridgeCA, loadOrCreateTrustAnchor, newHubIdentity]

def keyOf : Row → Loader Row
  | .credentialMasterKey => bootstrapCredentialMasterKey
  | .bridgeCACert => bridgeCA
  | .bridgeCAKey => bridgeCA
  | .directorySigningKey => loadOrCreateTrustAnchor
  | .reticulumEncryptionKey => newHubIdentity
  | .reticulumSigningKey => newHubIdentity

theorem keyOf_mem (r : Row) : keyOf r ∈ hubKeys ∧ r ∈ (keyOf r).rows := by
  cases r <;> decide

theorem keyOf_eq {l : Loader Row} (hl : l ∈ hubKeys) {r : Row} (hr : r ∈ l.rows) : keyOf r = l := by
  have hall : ∀ l ∈ hubKeys, ∀ r ∈ l.rows, keyOf r = l := by decide
  exact hall l hl r hr

theorem hubKeys_disjoint : Disjoint hubKeys := by
  intro l hl l' hl' r hr hr'
  exact (keyOf_eq hl hr).symm.trans (keyOf_eq hl' hr')

abbrev Hub := System Row Nat

/-- No replica runs yet, and the store is empty or holds a full set of keys. -/
structure Initial (s : Hub) : Prop where
  processes : s.processes = []
  rows : (∀ r, s.rows r = none) ∨ ∀ l ∈ hubKeys, ∃ g, Complete s.rows l g

structure StartedClean (p : Process Row Nat) : Prop where
  started : p.ahead = []
  running : p.stage ≠ .stopped
  clean : p.failed = false

instance (p : Process Row Nat) : Decidable (StartedClean p) :=
  decidable_of_iff (p.ahead = [] ∧ p.stage ≠ .stopped ∧ p.failed = false)
    ⟨fun ⟨h₁, h₂, h₃⟩ => ⟨h₁, h₂, h₃⟩, fun h => ⟨h.1, h.2, h.3⟩⟩

theorem Initial.inv {s : Hub} (h : Initial s) : s.Inv hubKeys := by
  refine ⟨?_, ?_, ?_⟩
  · intro l hl row g hrow hg
    obtain hempty | hfull := h.rows
    · rw [hempty row] at hg
      cases hg
    · obtain ⟨g', hcomplete⟩ := hfull l hl
      rw [hcomplete row (Loader.second_mem hrow)] at hg
      rw [hcomplete _ l.first_mem, hg]
  · intro p hp
    rw [h.processes] at hp
    cases hp
  · intro i j p q l _ hp
    rw [h.processes] at hp
    cases hp

theorem StartedClean.holds_eq {s : Hub} (hinv : s.Inv hubKeys) {p : Process Row Nat}
    (hp : p ∈ s.processes) (h : StartedClean p) (r : Row) :
    (s.rows r).isSome ∧ p.holds r = s.rows r := by
  obtain ⟨hl, hr⟩ := keyOf_mem r
  obtain ⟨g, hrows, hholds⟩ := (hinv.processes p hp).held h.running h.clean _ hl
    (by rw [h.started]; exact List.not_mem_nil)
  exact ⟨by rw [hrows r hr, Option.isSome_some], (hholds r hr).trans (hrows r hr).symm⟩

theorem paired {s : Hub} (hinv : s.Inv hubKeys) {l : Loader Row} (hl : l ∈ hubKeys) {row : Row}
    (hrow : l.second = some row) {g g' : Nat} (hfirst : s.rows l.first = some g)
    (hsecond : s.rows row = some g') : g = g' := by
  have hboth := hinv.ordered l hl row g' hrow hsecond
  exact Option.some.inj (hfirst.symm.trans hboth)

/-- In every careful run the certificate of the bridge CA belongs to its key and
the halves of the Reticulum identity to one identity, replicas that started
without a failed operation hold the same keys, and a key stored in full never
changes. -/
theorem hub_keys_last {s₀ s : Hub} (h₀ : Initial s₀)
    (hrun : Reaches (step hubKeys) (fun s e => careful s e = true) s₀ s) :
    (∀ g g', s.rows .bridgeCACert = some g → s.rows .bridgeCAKey = some g' → g = g') ∧
      (∀ g g', s.rows .reticulumEncryptionKey = some g → s.rows .reticulumSigningKey = some g' →
        g = g') ∧
      (∀ p ∈ s.processes, ∀ q ∈ s.processes, StartedClean p → StartedClean q →
        ∀ r, (p.holds r).isSome ∧ p.holds r = q.holds r) ∧
      ∀ s', Reaches (step hubKeys) (fun s e => careful s e = true) s s' →
        ∀ l ∈ hubKeys, ∀ g, Complete s.rows l g → Complete s'.rows l g := by
  have hinv := (reaches_inv hubKeys_disjoint h₀.inv hrun).1
  refine ⟨?_, ?_, ?_, ?_⟩
  · intro g g' hcert hkey
    exact paired hinv (l := bridgeCA) (by decide) rfl hcert hkey
  · intro g g' henc hsig
    exact paired hinv (l := newHubIdentity) (by decide) rfl henc hsig
  · intro p hp q hq hpstart hqstart r
    obtain ⟨hstored, hpr⟩ := hpstart.holds_eq hinv hp r
    obtain ⟨_, hqr⟩ := hqstart.holds_eq hinv hq r
    exact ⟨hpr ▸ hstored, hpr.trans hqr.symm⟩
  · intro s' hrun'
    exact (reaches_inv hubKeys_disjoint hinv hrun').2

/-- A first boot that makes every key, and a second replica that loads them. -/
def firstBoot : List (Event Nat) :=
  [.start, .run 0 .ok, .make 0 0 false, .run 0 .ok,
    .run 0 .ok, .run 0 .ok, .make 0 1 false, .run 0 .ok, .run 0 .ok,
    .run 0 .ok, .make 0 2 false, .run 0 .ok,
    .run 0 .ok, .make 0 3 false, .run 0 .ok, .run 0 .ok,
    .start, .run 1 .ok, .run 1 .ok, .run 1 .ok, .run 1 .ok, .run 1 .ok, .run 1 .ok]

/-- After a first boot into an empty store two replicas hold the same keys. -/
theorem hub_keys_last_firstBoot :
    ∃ s : Hub, Reaches (step hubKeys) (fun s e => careful s e = true) ⟨fun _ => none, []⟩ s ∧
      s.processes.length = 2 ∧ ∀ p ∈ s.processes, ∀ q ∈ s.processes,
        StartedClean p ∧ StartedClean q ∧ ∀ r, (p.holds r).isSome ∧ p.holds r = q.holds r := by
  obtain ⟨s, hrun, ⟨htwo, hclean⟩, hsame⟩ := exists_reaches_and_of_decide
    (P := fun s => s.processes.length = 2 ∧ ∀ p ∈ s.processes, StartedClean p) firstBoot
    (by decide +kernel) fun s (hrun : Reaches _ _ ⟨fun _ => none, []⟩ s) =>
      (hub_keys_last ⟨rfl, Or.inl fun _ => rfl⟩ hrun).2.2.1
  exact ⟨s, hrun, htwo, fun p hp q hq => ⟨hclean p hp, hclean q hq,
    hsame p hp q hq (hclean p hp) (hclean q hq)⟩⟩

/-- A replica starts over a full store; its read of the credential master key
fails, and it generates and stores another one. -/
theorem failed_read_replaces_master_key :
    ∃ s₀ s : Hub, Initial s₀ ∧ Complete s₀.rows bootstrapCredentialMasterKey 0 ∧
      Reaches (step hubKeys) (fun _ _ => True) s₀ s ∧ s.rows .credentialMasterKey = some 1 := by
  have hview : (replay (step hubKeys) ⟨fun _ => some 0, []⟩
      [.start, .run 0 .failed, .make 0 1 false, .run 0 .ok]).map
      (fun s => s.rows .credentialMasterKey) = some (some 1) := by
    decide +kernel
  obtain ⟨s, hrun, heq⟩ := exists_reaches_of_replay hview
  exact ⟨_, s, ⟨rfl, Or.inr fun _ _ => ⟨0, fun _ _ => rfl⟩⟩, fun _ _ => rfl, hrun, heq⟩

end MeshsatHub.Startup
