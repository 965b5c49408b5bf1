import MeshsatHub.Foundations.Bootstrap.Operations

/-!
# Runs of loading processes

In a careful run a value that is stored in full is never written again.
-/

namespace MeshsatHub.Bootstrap
open Runs List
variable {R V : Type*} [DecidableEq R] {loaders : List (Loader R)} {s s' : System R V} {i j : Nat}
  {p p' q : Process R V}

/-- A value that is not stored in full is loaded by one process at a time. -/
structure System.Inv (loaders : List (Loader R)) (s : System R V) : Prop where
  ordered : ∀ l ∈ loaders, Ordered s.rows l
  processes : ∀ p ∈ s.processes, p.Inv loaders s.rows
  /-- A value that is not stored in full is loaded by one process at a time. -/
  alone : ∀ (i j : Nat) (p q : Process R V) (l : Loader R), i ≠ j →
    s.processes[i]? = some p → s.processes[j]? = some q → p.busyWith = some l →
      q.busyWith = some l → ¬Open s.rows l

omit [DecidableEq R] in
/-- The processes after one of them moved. -/
theorem getElem?_set_cases {ps : List (Process R V)}
    (h : (ps.set i p')[j]? = some q) : (j = i ∧ q = p') ∨ (j ≠ i ∧ ps[j]? = some q) := by
  by_cases hij : i = j
  · subst hij
    rw [getElem?_set_self'] at h
    obtain ⟨_, _, hq⟩ := Option.map_eq_some_iff.1 h
    exact Or.inl ⟨rfl, hq.symm⟩
  · rw [getElem?_set_ne hij] at h
    exact Or.inr ⟨Ne.symm hij, h⟩

omit [DecidableEq R] in
/-- One process moved without touching the store. -/
theorem System.Inv.set (h : s.Inv loaders) (hi : s.processes[i]? = some p)
    (hp' : p'.Inv loaders s.rows) (hbusy : ∀ l, p'.busyWith = some l → p.busyWith = some l) :
    System.Inv loaders { s with processes := s.processes.set i p' } := by
  refine ⟨h.ordered, ?_, ?_⟩
  · exact all_mem_set h.processes hp'
  · intro j k q r l hjk hq hr hql hrl
    obtain ⟨rfl, rfl⟩ | ⟨hj, hq'⟩ := getElem?_set_cases hq
    · obtain ⟨rfl, _⟩ | ⟨_, hr'⟩ := getElem?_set_cases hr
      · exact absurd rfl hjk
      · exact h.alone j k p r l hjk hi hr' (hbusy l hql) hrl
    · obtain ⟨rfl, rfl⟩ | ⟨_, hr'⟩ := getElem?_set_cases hr
      · exact h.alone j k q p l hjk hq' hi hql (hbusy l hrl)
      · exact h.alone j k q r l hjk hq' hr' hql hrl

variable {l : Loader R} {outcome : Outcome}

section
variable (hok : careful s (.run i outcome) = true)
include hok

section
variable (hi : s.processes[i]? = some p)
include hi

theorem careful_readFirst (hstage : p.stage = .readFirst l) :
    (outcome.isOk ∨ s.rows l.first = none) ∧ (stored s.rows l ∨ s.alone i l) := by
  simpa [careful, hi, hstage] using hok

theorem careful_readSecond {row : R} {found : Option V}
    (hstage : p.stage = .readSecond l row found) : outcome.isOk ∨ s.rows row = none := by
  simpa [careful, hi, hstage] using hok

theorem careful_writeFirst {v : V} {keeps : Bool} (hstage : p.stage = .writeFirst l v keeps) :
    outcome ≠ .failed ∨ l.second = none ∨ l.writeOn = false := by
  simpa [careful, hi, hstage, or_assoc] using hok

end

end

/-- A careful operation does what it should. -/
theorem System.Inv.advanced (h : s.Inv loaders) (hdisj : Disjoint loaders)
    (hok : careful s (.run i outcome)) (hi : s.processes[i]? = some p) (hwaiting : p.waiting) :
    Advanced loaders s.rows (p.advance s.rows outcome).1 p (p.advance s.rows outcome).2 := by
  have hp := h.processes p (mem_of_getElem? hi)
  obtain ⟨stage, rest, holds, failed⟩ := p
  cases stage with
  | readFirst l => exact advance_readFirst hdisj h.ordered hp (careful_readFirst hok hi rfl).1
  | readSecond l row found =>
    exact advance_readSecond hdisj h.ordered hp (careful_readSecond hok hi rfl)
  | writeFirst l v keeps =>
    exact advance_writeFirst hdisj h.ordered hp (careful_writeFirst hok hi rfl)
  | writeSecond l row v keeps ok => exact advance_writeSecond hdisj h.ordered hp
  | making l | started | stopped => cases hwaiting

/-- A process that begins to load a value not stored in full finds no other one
loading it. -/
theorem not_busy_of_alone (h : s.alone i l)
    (hj : s.processes[j]? = some q) (hne : j ≠ i) : q.busyWith ≠ some l := by
  have hmem : q ∈ s.processes.eraseIdx i := mem_eraseIdx_iff_getElem?.2 ⟨j, hne, hj⟩
  simpa using all_eq_true.1 h q hmem

theorem System.Inv.run (h : s.Inv loaders) (hdisj : Disjoint loaders)
    (hok : careful s (.run i outcome)) (hi : s.processes[i]? = some p)
    (hwaiting : p.waiting) : System.Inv loaders ⟨(p.advance s.rows outcome).1,
      s.processes.set i (p.advance s.rows outcome).2⟩ := by
  have hadv := h.advanced hdisj hok hi hwaiting
  have hopen : ∀ l, ¬Open s.rows l → ¬Open (p.advance s.rows outcome).1 l :=
    fun l hl hopen => hl (hadv.grows _ hopen)
  -- what the moving process is in the middle of, no other one is
  have hmoved : ∀ (j : Nat) (q : Process R V) (l : Loader R), j ≠ i → s.processes[j]? = some q →
      (p.advance s.rows outcome).2.busyWith = some l → q.busyWith = some l →
      ¬Open s.rows l := by
    intro j q l hj hq hpl hql
    obtain hbusy | hstage := hadv.busy l hpl
    · exact h.alone j i q p l hj hq hi hql hbusy
    · obtain hstored | halone := (careful_readFirst hok hi hstage).2
      · have hl : l ∈ loaders := by
          apply (h.processes p (mem_of_getElem? hi)).ahead
          simp [Process.ahead, hstage]
        exact (stored_iff (h.ordered l hl)).1 hstored
      · exact absurd hql (not_busy_of_alone halone hq hj)
  refine ⟨hadv.ordered, ?_, ?_⟩
  · intro q hq
    obtain ⟨j, hj⟩ := getElem?_of_mem hq
    obtain ⟨_, rfl⟩ | ⟨hne, hj⟩ := getElem?_set_cases hj
    · exact hadv.process
    · have hq' := h.processes q (mem_of_getElem? hj)
      obtain hsame | ⟨l, hbusy, hopen, hframe⟩ := hadv.frame
      · exact hsame.symm ▸ hq'
      · have hl : l ∈ loaders :=
          (h.processes p (mem_of_getElem? hi)).ahead (Process.busyWith_mem hbusy)
        exact hq'.frame hdisj hl hopen hframe fun hql =>
          h.alone j i q p l hne hj hi hql hbusy hopen
  · intro j k q r l hjk hq hr hql hrl
    apply hopen
    obtain ⟨rfl, rfl⟩ | ⟨hj, hq'⟩ := getElem?_set_cases hq
    · obtain ⟨rfl, _⟩ | ⟨hk, hr'⟩ := getElem?_set_cases hr
      · exact absurd rfl hjk
      · exact hmoved k r l hk hr' hql hrl
    · obtain ⟨rfl, rfl⟩ | ⟨_, hr'⟩ := getElem?_set_cases hr
      · exact hmoved j q l hj hq' hrl hql
      · exact h.alone j k q r l hjk hq' hr' hql hrl

omit [DecidableEq R] in
theorem newProcess_inv (loaders : List (Loader R)) (rows : R → Option V) :
    (newProcess loaders : Process R V).Inv loaders rows :=
  Process.enter_inv (fun _ h => h) fun _ _ hl hnot => absurd hl hnot

/-- A careful step keeps the invariant and every value stored in full. -/
theorem step_inv (hdisj : Disjoint loaders) (h : s.Inv loaders) (e : Event V)
    (hok : careful s e) (hstep : step loaders s e = some s') :
    s'.Inv loaders ∧ ∀ l ∈ loaders, ∀ v, Complete s.rows l v → Complete s'.rows l v := by
  revert hstep
  fun_cases step loaders s e with rintro ⟨⟩
  | case1 =>
    refine ⟨⟨h.ordered, ?_, ?_⟩, fun _ _ _ hv => hv⟩
    · exact all_mem_snoc h.processes (newProcess_inv loaders s.rows)
    · intro j k q r l hjk hq hr hql hrl
      have hold : ∀ {j : Nat} {q : Process R V}, q.busyWith = some l →
          (s.processes ++ [newProcess loaders])[j]? = some q → s.processes[j]? = some q := by
        intro j q hql hq
        rw [getElem?_append] at hq
        split at hq
        · exact hq
        · rw [mem_singleton.1 (mem_of_getElem? hq), newProcess, Process.enter_busyWith] at hql
          cases hql
      exact h.alone j k q r l hjk (hold hql hq) (hold hrl hr) hql hrl
  | case3 i outcome p hi hwaiting rows p' hadvance =>
    have hrun := h.run hdisj hok hi hwaiting
    have hadvanced := h.advanced hdisj hok hi hwaiting
    simp only [hadvance] at hrun hadvanced
    refine ⟨hrun, fun l hl v hv => ?_⟩
    obtain hsame | ⟨l', hbusy, hopen, hframe⟩ := hadvanced.frame
    · exact hsame.symm ▸ hv
    · have hl' : l' ∈ loaders :=
        (h.processes p (mem_of_getElem? hi)).ahead (Process.busyWith_mem hbusy)
      have hne : l ≠ l' := by
        rintro rfl
        exact hv.not_open hopen
      exact fun r hr => (hframe.eq_of_ne hdisj hl' hl hne hr).trans (hv r hr)
  | case6 i v copied l rest holds failed hi =>
    have hp := h.processes _ (mem_of_getElem? hi)
    exact ⟨h.set hi ⟨hp.ahead, hp.stage, fun _ => hp.held nofun⟩ fun _ hbusy => hbusy,
      fun _ _ _ hv => hv⟩
  | case9 i p hi =>
    have hp := h.processes p (mem_of_getElem? hi)
    refine ⟨h.set hi ⟨?_, trivial, fun hstop => absurd rfl hstop⟩ ?_, fun _ _ _ hv => hv⟩
    · intro l hl
      apply hp.ahead
      obtain ⟨stage, rest, holds, failed⟩ := p
      cases stage with
      | started | stopped => exact hl
      | readFirst | readSecond | making | writeFirst | writeSecond => exact mem_cons_of_mem _ hl
    · intro l hl
      cases hl

/-- In a careful run the invariant lasts and so does every value stored in full. -/
theorem reaches_inv (hdisj : Disjoint loaders) (h : s.Inv loaders)
    (hrun : Reaches (step loaders) (fun s e => careful s e) s s') :
    s'.Inv loaders ∧ ∀ l ∈ loaders, ∀ v, Complete s.rows l v → Complete s'.rows l v := by
  induction hrun with
  | refl => exact ⟨h, fun _ _ _ hv => hv⟩
  | tail e _ hok hstep ih =>
    obtain ⟨hinv, hkept⟩ := step_inv hdisj ih.1 e hok hstep
    exact ⟨hinv, fun l hl v hv => hkept l hl v (ih.2 l hl v hv)⟩

end MeshsatHub.Bootstrap
