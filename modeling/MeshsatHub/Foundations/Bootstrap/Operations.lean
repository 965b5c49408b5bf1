import MeshsatHub.Foundations.Bootstrap

/-!
# The operations of a loading process

One operation of a process is `Advanced`: it changes no row but those of the loader it is busy with,
and these only while the value is not stored in full.
-/

namespace MeshsatHub.Bootstrap
open Runs List Function Option
variable {R V : Type*} {loaders but : List (Loader R)} {rows rows' : R → Option V} {l l' : Loader R}
  {p : Process R V} {row r : R} {v : V}

def Disjoint (loaders : List (Loader R)) : Prop :=
  ∀ l ∈ loaders, ∀ l' ∈ loaders, ∀ r, r ∈ l.rows → r ∈ l'.rows → l = l'

def Ordered (rows : R → Option V) (l : Loader R) : Prop :=
  ∀ row v, l.second = some row → rows row = some v → rows l.first = some v

/-- The value is not stored in full. -/
def Open (rows : R → Option V) (l : Loader R) : Prop := rows l.last = none

def Complete (rows : R → Option V) (l : Loader R) (v : V) : Prop := ∀ r ∈ l.rows, rows r = some v

namespace Loader

theorem first_mem (l : Loader R) : l.first ∈ l.rows := by simp [rows]

theorem second_mem (h : l.second = some row) : row ∈ l.rows := by
  simp [rows, h]

theorem last_mem (l : Loader R) : l.last ∈ l.rows := by
  cases h : l.second with
  | none | some row => simp [last, rows, h]

theorem forall_rows {P : R → Prop} :
    (∀ r ∈ l.rows, P r) ↔ P l.first ∧ ∀ row, l.second = some row → P row := by
  simp [rows]

end Loader

theorem complete_of_last (hord : Ordered rows l) (h : rows l.last = some v) :
    Complete rows l v := by
  rw [Complete, Loader.forall_rows]
  cases hsecond : l.second with
  | none => simpa [Loader.last, hsecond] using h
  | some row =>
    have hrow : rows row = some v := by simpa [Loader.last, hsecond] using h
    refine ⟨hord row v hsecond hrow, ?_⟩
    intro row' hrow'
    cases hrow'
    exact hrow

theorem Complete.not_open (h : Complete rows l v) : ¬Open rows l := by
  intro hopen
  have hlast := h l.last l.last_mem
  rw [hopen] at hlast
  cases hlast

theorem stored_iff (hord : Ordered rows l) : stored rows l ↔ ¬Open rows l := by
  constructor
  · intro h hopen
    have hlast := all_eq_true.1 h l.last l.last_mem
    rw [hopen] at hlast
    cases hlast
  · intro h
    obtain ⟨v, hv⟩ := ne_none_iff_exists'.1 h
    apply all_eq_true.2
    intro r hr
    rw [complete_of_last hord hv r hr]
    rfl

/-- Without the first row the value is not stored in full. -/
theorem open_of_first (hord : Ordered rows l) (h : rows l.first = none) : Open rows l := by
  apply Classical.byContradiction
  intro hclosed
  obtain ⟨v, hv⟩ := ne_none_iff_exists'.1 hclosed
  have hfirst := complete_of_last hord hv l.first l.first_mem
  rw [h] at hfirst
  cases hfirst

def Process.ahead (p : Process R V) : List (Loader R) :=
  match p.stage with
  | .readFirst l => l :: p.rest
  | .readSecond l _ _ => l :: p.rest
  | .making l => l :: p.rest
  | .writeFirst l _ _ => l :: p.rest
  | .writeSecond l _ _ _ _ => l :: p.rest
  | .started => p.rest
  | .stopped => p.rest

def Stage.Inv (rows : R → Option V) (failed : Bool) : Stage R V → Prop
  | .readFirst _ => True
  | .readSecond l row found => l.second = some row ∧ found = rows l.first
  | .making l => Open rows l
  | .writeFirst l _ _ => Open rows l
  | .writeSecond l row v _ ok =>
    l.second = some row ∧ Open rows l ∧ rows l.first = some v ∧ (ok = false → failed = true)
  | .started => True
  | .stopped => True

def Process.HeldBeyond (loaders : List (Loader R)) (rows : R → Option V) (but : List (Loader R))
    (p : Process R V) : Prop :=
  p.failed = false → ∀ l ∈ loaders, l ∉ but → ∃ v, Complete rows l v ∧ Complete p.holds l v

/-- What a process relies on between its reads and writes. -/
structure Process.Inv (loaders : List (Loader R)) (rows : R → Option V) (p : Process R V) :
    Prop where
  ahead : p.ahead ⊆ loaders
  stage : p.stage.Inv rows p.failed
  held : p.stage ≠ .stopped → p.HeldBeyond loaders rows p.ahead

/-- Only rows of `l` differ. -/
def Frame (l : Loader R) (rows rows' : R → Option V) : Prop := ∀ r, r ∉ l.rows → rows' r = rows r

theorem Process.busyWith_mem (h : p.busyWith = some l) : l ∈ p.ahead := by
  obtain ⟨stage, rest, holds, failed⟩ := p
  cases stage <;> simp_all [Process.busyWith, Process.ahead]

theorem Frame.eq_of_ne (h : Frame l rows rows') (hdisj : Disjoint loaders) (hl : l ∈ loaders)
    (hl' : l' ∈ loaders) (hne : l' ≠ l) (hr : r ∈ l'.rows) :
    rows' r = rows r :=
  h r fun hmem => hne (hdisj l' hl' l hl r hr hmem)

theorem Ordered.frame (h : Ordered rows l') (hframe : Frame l rows rows') (hdisj : Disjoint loaders)
    (hl : l ∈ loaders) (hl' : l' ∈ loaders) (hne : l' ≠ l) : Ordered rows' l' := by
  intro row v hrow hv
  rw [hframe.eq_of_ne hdisj hl hl' hne (Loader.second_mem hrow)] at hv
  rw [hframe.eq_of_ne hdisj hl hl' hne l'.first_mem]
  exact h row v hrow hv

theorem Process.HeldBeyond.frame (h : p.HeldBeyond loaders rows but)
    (hdisj : Disjoint loaders) (hl : l ∈ loaders) (hopen : Open rows l)
    (hframe : Frame l rows rows') : p.HeldBeyond loaders rows' but := by
  intro hclean l' hl' hdone
  obtain ⟨v, hcomplete, hholds⟩ := h hclean l' hl' hdone
  have hne : l' ≠ l := by
    rintro rfl
    exact hcomplete.not_open hopen
  exact ⟨v, fun r hr => (hframe.eq_of_ne hdisj hl hl' hne hr).trans (hcomplete r hr), hholds⟩

theorem Process.Inv.frame (hp : p.Inv loaders rows) (hdisj : Disjoint loaders) (hl : l ∈ loaders)
    (hopen : Open rows l) (hframe : Frame l rows rows') (hbusy : p.busyWith ≠ some l) :
    p.Inv loaders rows' := by
  have hother : ∀ l' ∈ loaders, l' ≠ l → ∀ r ∈ l'.rows, rows' r = rows r :=
    fun l' hl' hne r hr => hframe.eq_of_ne hdisj hl hl' hne hr
  refine ⟨hp.ahead, ?_, fun h => (hp.held h).frame hdisj hl hopen hframe⟩
  · have hstage := hp.stage
    have hahead := hp.ahead
    obtain ⟨stage, rest, holds, failed⟩ := p
    cases stage with
    | readFirst l' | started | stopped => trivial
    | readSecond l' row found =>
      have hne : l' ≠ l := fun h => hbusy (congrArg some h)
      refine ⟨hstage.1, hstage.2.trans ?_⟩
      exact (hother l' (hahead mem_cons_self) hne _ l'.first_mem).symm
    | making l' | writeFirst l' v keeps =>
      have hne : l' ≠ l := fun h => hbusy (congrArg some h)
      exact (hother l' (hahead mem_cons_self) hne _ l'.last_mem).trans hstage
    | writeSecond l' row v keeps ok =>
      have hne : l' ≠ l := fun h => hbusy (congrArg some h)
      have hsame := hother l' (hahead mem_cons_self) hne
      exact ⟨hstage.1, (hsame _ l'.last_mem).trans hstage.2.1,
        (hsame _ l'.first_mem).trans hstage.2.2.1, hstage.2.2.2⟩

variable {p' : Process R V} {outcome : Outcome}

theorem Process.HeldBeyond.note (h : p.HeldBeyond loaders rows but)
    (outcome : Outcome) : (p.note outcome).HeldBeyond loaders rows but := by
  intro hclean
  exact h (Bool.or_eq_false_iff.1 hclean).1

theorem isOk_of_note (h : (p.note outcome).failed = false) : outcome.isOk := by
  simpa using (Bool.or_eq_false_iff.1 h).2

theorem Process.enter_inv (hrest : p.rest ⊆ loaders) (h : p.HeldBeyond loaders rows p.rest) :
    p.enter.Inv loaders rows := by
  obtain ⟨stage, rest, holds, failed⟩ := p
  cases rest with
  | nil | cons l rest => exact ⟨hrest, trivial, fun _ => h⟩

theorem Process.enter_busyWith (p : Process R V) : p.enter.busyWith = none := by
  obtain ⟨stage, rest, holds, failed⟩ := p
  cases rest with
  | nil => rfl
  | cons l rest => rfl

theorem Process.goTo_inv {stage : Stage R V} (hahead : (p.goTo stage).ahead = l :: p.rest)
    (hl : l :: p.rest ⊆ loaders) (hstage : stage.Inv rows p.failed)
    (h : p.HeldBeyond loaders rows (l :: p.rest)) : (p.goTo stage).Inv loaders rows :=
  ⟨hahead ▸ hl, hstage, fun _ => hahead ▸ h⟩

/-- What an operation of a process does. -/
structure Advanced (loaders : List (Loader R)) (rows rows' : R → Option V)
    (p p' : Process R V) : Prop where
  process : p'.Inv loaders rows'
  ordered : ∀ l ∈ loaders, Ordered rows' l
  frame : rows' = rows ∨ ∃ l, p.busyWith = some l ∧ Open rows l ∧ Frame l rows rows'
  grows : ∀ r, rows' r = none → rows r = none
  busy : ∀ l, p'.busyWith = some l → p.busyWith = some l ∨ p.stage = .readFirst l

/-- The next operation of a process, with this outcome. -/
abbrev Advances [DecidableEq R] (loaders : List (Loader R)) (rows : R → Option V)
    (p : Process R V) (outcome : Outcome) : Prop :=
  Advanced loaders rows (p.advance rows outcome).1 p (p.advance rows outcome).2

/-- A read that is not lost answers what is stored. -/
theorem readRow_eq (h : outcome.isOk ∨ rows row = none) : readRow rows row outcome = rows row := by
  cases hok : outcome.isOk with
  | true => simp only [readRow, hok, if_true]
  | false =>
    rw [hok] at h
    simp only [readRow, hok, Bool.false_eq_true, if_false]
    exact (h.resolve_left Bool.false_ne_true).symm

/-- Reads leave the store as it is. -/
theorem Advanced.of_read (hord : ∀ l ∈ loaders, Ordered rows l) (hp : p'.Inv loaders rows)
    (hbusy : ∀ l, p'.busyWith = some l → p.busyWith = some l ∨ p.stage = .readFirst l) :
    Advanced loaders rows rows p p' :=
  ⟨hp, hord, Or.inl rfl, fun _ h => h, hbusy⟩

variable [DecidableEq R]

namespace Process

/-- A process is done with a loader whose value it uses. -/
theorem take_inv (hdisj : Disjoint loaders) (hl : l :: p.rest ⊆ loaders)
    (h : p.HeldBeyond loaders rows (l :: p.rest)) {v₁ v₂ : Option V} (hnew : p.failed = false →
      ∃ v, Complete rows l v ∧ v₁ = some v ∧ (l.second ≠ none → v₂ = some v)) :
    (p.take l v₁ v₂).Inv loaders rows := by
  refine enter_inv (cons_subset.1 hl).2 ?_
  intro hclean l' hl' hrest
  by_cases hsame : l' = l
  · subst hsame
    obtain ⟨v, hcomplete, hfirst, hsecond⟩ := hnew hclean
    refine ⟨v, hcomplete, ?_⟩
    rw [Complete, Loader.forall_rows]
    refine ⟨?_, fun row hrow => ?_⟩
    · simpa only [if_true] using hfirst
    · have hne : row ≠ l'.first := fun heq => l'.distinct (heq ▸ hrow)
      simpa only [hne, if_false, hrow, if_true] using hsecond (by simp [hrow])
  · obtain ⟨v, hcomplete, hholds⟩ := h hclean l' hl' (by simp [hsame, hrest])
    refine ⟨v, hcomplete, fun r hr => ?_⟩
    have hapart : r ∉ l.rows := fun hmem =>
      hsame (hdisj l' hl' l (hl mem_cons_self) r hr hmem)
    have hfirst : r ≠ l.first := fun heq => hapart (heq ▸ l.first_mem)
    have hsecond : l.second ≠ some r := fun heq => hapart (Loader.second_mem heq)
    simpa only [hfirst, hsecond, if_false] using hholds r hr

/-- A process is done with a loader whose value it made. -/
theorem settle_inv (hdisj : Disjoint loaders) (hl : l :: p.rest ⊆ loaders)
    (h : p.HeldBeyond loaders rows (l :: p.rest)) {used : Bool}
    (hnew : p.failed = false → Complete rows l v ∧ used) :
    (p.settle l v used).Inv loaders rows := by
  cases used with
  | true =>
    apply take_inv hdisj hl h
    intro hclean
    exact ⟨v, (hnew hclean).1, rfl, fun _ => rfl⟩
  | false =>
    apply enter_inv (cons_subset.1 hl).2
    intro hclean
    exact absurd (hnew hclean).2 Bool.false_ne_true

theorem take_busyWith (p : Process R V) (l : Loader R) (v₁ v₂ : Option V) :
    (p.take l v₁ v₂).busyWith = none := enter_busyWith _

theorem settle_busyWith (p : Process R V) (l : Loader R) (v : V) (used : Bool) :
    (p.settle l v used).busyWith = none := by
  cases used with
  | true => exact p.take_busyWith l _ _
  | false => exact p.enter_busyWith

end Process

variable {rest : List (Loader R)} {holds : R → Option V} {failed : Bool}

theorem advance_readFirst (hdisj : Disjoint loaders) (hord : ∀ l ∈ loaders, Ordered rows l)
    (hp : Process.Inv loaders rows ⟨.readFirst l, rest, holds, failed⟩)
    (hread : outcome.isOk ∨ rows l.first = none) :
    Advances loaders rows ⟨.readFirst l, rest, holds, failed⟩ outcome := by
  have hahead : l :: rest ⊆ loaders := hp.ahead
  have hl : l ∈ loaders := hahead mem_cons_self
  have hheld := (hp.held (by intro h; cases h)).note outcome
  cases hsecond : l.second with simp only [Advances, Process.advance, readRow_eq hread, hsecond]
  | none =>
    cases hfirst : rows l.first with
    | some v =>
      simp only [isSome_some, if_true]
      refine .of_read hord ?_ ?_
      · apply Process.take_inv hdisj hahead hheld
        intro _
        refine ⟨v, complete_of_last (hord l hl) ?_, rfl, fun h => absurd hsecond h⟩
        rw [Loader.last, hsecond, getD_none, hfirst]
      · intro l' h
        rw [Process.take_busyWith] at h
        cases h
    | none =>
      refine .of_read hord (Process.goTo_inv rfl hahead ?_ hheld) ?_
      · exact open_of_first (hord l hl) hfirst
      · intro l' h
        exact Or.inr (congrArg Stage.readFirst (some.inj h))
  | some row =>
    cases hgo : (rows l.first).isSome || l.readOn with
    | true =>
      refine .of_read hord (Process.goTo_inv rfl hahead ⟨hsecond, rfl⟩ hheld) ?_
      intro l' h
      exact Or.inr (congrArg Stage.readFirst (some.inj h))
    | false =>
      have hfirst : rows l.first = none := by
        simpa using (Bool.or_eq_false_iff.1 hgo).1
      refine .of_read hord (Process.goTo_inv rfl hahead ?_ hheld) ?_
      · exact open_of_first (hord l hl) hfirst
      · intro l' h
        exact Or.inr (congrArg Stage.readFirst (some.inj h))

theorem advance_readSecond {found : Option V} (hdisj : Disjoint loaders)
    (hord : ∀ l ∈ loaders, Ordered rows l)
    (hp : Process.Inv loaders rows ⟨.readSecond l row found, rest, holds, failed⟩)
    (hread : outcome.isOk ∨ rows row = none) :
    Advances loaders rows ⟨.readSecond l row found, rest, holds, failed⟩ outcome := by
  have hahead : l :: rest ⊆ loaders := hp.ahead
  have hl : l ∈ loaders := hahead mem_cons_self
  have hheld := (hp.held (by intro h; cases h)).note outcome
  obtain ⟨hsecond, hfound⟩ := hp.stage
  simp only [Advances, Process.advance, readRow_eq hread]
  cases hboth : found.isSome && (rows row).isSome with
  | true =>
    simp only [if_true]
    obtain ⟨v, hv⟩ := isSome_iff_exists.1 (Bool.and_eq_true_iff.1 hboth).2
    have hcomplete : Complete rows l v := complete_of_last (hord l hl) (by
      rw [Loader.last, hsecond, getD_some, hv])
    refine .of_read hord ?_ ?_
    · apply Process.take_inv hdisj hahead hheld
      intro _
      exact ⟨v, hcomplete, hfound.trans (hcomplete _ l.first_mem), fun _ => hv⟩
    · intro l' h
      rw [Process.take_busyWith] at h
      cases h
  | false =>
    refine .of_read hord (Process.goTo_inv rfl hahead ?_ hheld) fun l' h => Or.inl h
    obtain hnone | hnone := Bool.and_eq_false_iff.1 hboth
    · apply open_of_first (hord l hl)
      rw [← hfound]
      simpa using hnone
    · have hrow : rows row = none := by simpa using hnone
      rw [Stage.Inv, Open, Loader.last, hsecond, getD_some, hrow]

variable {row : R} {v : V}

theorem writeRow_of_ne (h : r ≠ row) : writeRow rows row v outcome r = rows r := by
  rw [writeRow]
  split
  · rfl
  · rw [update_of_ne h]

theorem writeRow_self (h : outcome ≠ .failed) : writeRow rows row v outcome row = some v := by
  rw [writeRow, if_neg h, update_self]

theorem writeRow_eq_some {w : V} (h : writeRow rows row v outcome row = some w) :
    w = v ∨ rows row = some w := by
  by_cases hf : outcome = .failed
  · rw [writeRow, if_pos hf] at h
    exact Or.inr h
  · rw [writeRow_self hf] at h
    exact Or.inl (some.inj h).symm

theorem writeRow_grows (h : writeRow rows row v outcome r = none) : rows r = none := by
  rw [writeRow] at h
  split at h
  · exact h
  · by_cases hr : r = row
    · rw [hr, update_self] at h
      cases h
    · rwa [update_of_ne hr] at h

theorem frame_writeRow (h : row ∈ l.rows) : Frame l rows (writeRow rows row v outcome) := by
  intro r hr
  exact writeRow_of_ne fun heq => hr (heq ▸ h)

theorem ne_failed_of_isOk (h : outcome.isOk) : outcome ≠ .failed := by
  rintro rfl
  cases h

section
variable (hdisj : Disjoint loaders) (hord : ∀ l ∈ loaders, Ordered rows l)
include hdisj hord

theorem Advanced.of_write (hl : l ∈ loaders) (hbusy : p.busyWith = some l) (hopen : Open rows l)
    (hrow : row ∈ l.rows) (hpair : Ordered (writeRow rows row v outcome) l)
    (hp' : p'.Inv loaders (writeRow rows row v outcome))
    (hbusy' : ∀ l', p'.busyWith = some l' → l' = l) :
    Advanced loaders rows (writeRow rows row v outcome) p p' where
  process := hp'
  ordered l' hl' := by
    by_cases hsame : l' = l
    · exact hsame ▸ hpair
    · exact (hord l' hl').frame (frame_writeRow hrow) hdisj hl hl' hsame
  frame := Or.inr ⟨l, hbusy, hopen, frame_writeRow hrow⟩
  grows _ := writeRow_grows
  busy l' h := Or.inl (hbusy' l' h ▸ hbusy)

theorem advance_writeFirst {keeps : Bool}
    (hp : Process.Inv loaders rows ⟨.writeFirst l v keeps, rest, holds, failed⟩)
    (hwrite : outcome ≠ .failed ∨ l.second = none ∨ l.writeOn = false) :
    Advances loaders rows ⟨.writeFirst l v keeps, rest, holds, failed⟩ outcome := by
  have hahead : l :: rest ⊆ loaders := hp.ahead
  have hl : l ∈ loaders := hahead mem_cons_self
  have hopen : Open rows l := hp.stage
  have hheld := ((hp.held (by intro h; cases h)).note outcome).frame hdisj hl hopen
    (frame_writeRow l.first_mem : Frame l rows (writeRow rows l.first v outcome))
  cases hsecond : l.second with
  | none =>
    simp only [Advances, Process.advance, hsecond]
    refine .of_write hdisj hord hl rfl hopen l.first_mem ?_ ?_ ?_
    · intro row w hrow
      rw [hsecond] at hrow
      cases hrow
    · apply Process.settle_inv hdisj hahead hheld
      intro hclean
      have hok := isOk_of_note hclean
      refine ⟨?_, by rw [hok, Bool.true_or]⟩
      rw [Complete, Loader.forall_rows]
      refine ⟨writeRow_self (ne_failed_of_isOk hok), ?_⟩
      intro row hrow
      rw [hsecond] at hrow
      cases hrow
    · intro l' h
      rw [Process.settle_busyWith] at h
      cases h
  | some row =>
    have hne : row ≠ l.first := fun heq => l.distinct (heq ▸ hsecond)
    have hlast : l.last = row := by rw [Loader.last, hsecond, getD_some]
    have hopen' : Open (writeRow rows l.first v outcome) l := by
      rw [Open, hlast, writeRow_of_ne hne, ← hlast]
      exact hopen
    have hpair : Ordered (writeRow rows l.first v outcome) l := by
      intro row' w hrow' hw
      rw [← some.inj (hsecond.symm.trans hrow'), ← hlast, hopen'] at hw
      cases hw
    simp only [Advances, Process.advance, hsecond]
    refine .of_write hdisj hord hl rfl hopen l.first_mem hpair ?_ ?_
    · cases hgo : outcome.isOk || l.writeOn with
      | true =>
        refine Process.goTo_inv rfl hahead ⟨hsecond, hopen', ?_, ?_⟩ hheld
        · apply writeRow_self
          obtain hok | hon := Bool.or_eq_true_iff.1 hgo
          · exact ne_failed_of_isOk hok
          · obtain hwrite | hwrite | hwrite := hwrite
            · exact hwrite
            · rw [hsecond] at hwrite
              cases hwrite
            · rw [hon] at hwrite
              cases hwrite
        · intro hok
          simp only [Process.note, hok, Bool.not_false, Bool.or_true]
      | false =>
        apply Process.settle_inv hdisj hahead hheld
        intro hclean
        rw [isOk_of_note hclean, Bool.true_or] at hgo
        cases hgo
    · intro l' h
      split at h
      · exact (some.inj h).symm
      · rw [Process.settle_busyWith] at h
        cases h

theorem advance_writeSecond {keeps ok : Bool}
    (hp : Process.Inv loaders rows ⟨.writeSecond l row v keeps ok, rest, holds, failed⟩) :
    Advances loaders rows ⟨.writeSecond l row v keeps ok, rest, holds, failed⟩ outcome := by
  have hahead : l :: rest ⊆ loaders := hp.ahead
  have hl : l ∈ loaders := hahead mem_cons_self
  obtain ⟨hsecond, hopen, hfirst, hfailed⟩ := hp.stage
  have hmem : row ∈ l.rows := Loader.second_mem hsecond
  have hheld := ((hp.held (by intro h; cases h)).note outcome).frame hdisj hl hopen
    (frame_writeRow hmem : Frame l rows (writeRow rows row v outcome))
  have hne : l.first ≠ row := fun heq => l.distinct (heq ▸ hsecond)
  have hrow : rows row = none := by
    rw [← hopen, Loader.last, hsecond, getD_some]
  simp only [Advances, Process.advance]
  refine .of_write hdisj hord hl rfl hopen hmem ?_ ?_ ?_
  · intro row' w hrow' hw
    cases hsecond.symm.trans hrow'
    rw [writeRow_of_ne hne, hfirst]
    obtain rfl | hold := writeRow_eq_some hw
    · rfl
    · rw [hrow] at hold
      cases hold
  · apply Process.settle_inv hdisj hahead hheld
    intro hclean
    have hok := isOk_of_note hclean
    have hbefore : ok := by
      cases hok' : ok with
      | true => rfl
      | false =>
        have hbad := (Bool.or_eq_false_iff.1 hclean).1
        rw [hfailed hok'] at hbad
        cases hbad
    refine ⟨?_, by rw [hok, hbefore, Bool.and_self, Bool.true_or]⟩
    rw [Complete, Loader.forall_rows]
    refine ⟨by rw [writeRow_of_ne hne, hfirst], fun row' hrow' => ?_⟩
    cases hsecond.symm.trans hrow'
    exact writeRow_self (ne_failed_of_isOk hok)
  · intro l' h
    rw [Process.settle_busyWith] at h
    cases h

end

end MeshsatHub.Bootstrap
