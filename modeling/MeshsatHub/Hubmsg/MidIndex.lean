import MeshsatHub.Hubmsg.Admission

/-!
# One operation for a key, one content for a mid

Every stored operation has its mid in the index under its own digest, and the index has one row for
a mid. While an admission that has found its mid in the index is on its way to its commit, a prune
must not delete that row. In every run without such a prune the index is kept (`AdmissionInv`).
-/

namespace MeshsatHub.Hubmsg
open Interleaving Runs Histories List

def Deciding.indexedMid : Deciding → Option MidKey
  | .admitting op _ (.indexed _) => some op.midKey
  | .admitting op _ (.matched _) => some op.midKey
  | .admitting op _ (.inserted _) => some op.midKey
  | _ => none

/-- The row of the index that a call has found in place, and has not inserted. -/
def Deciding.reliesOn : Deciding → Option (MidKey × String)
  | .admitting op _ (.matched false) => some (op.midKey, op.contentSHA256)
  | .admitting op _ (.inserted false) => some (op.midKey, op.contentSHA256)
  | _ => none

def StandsAdmitted (log : List Decided) (k : Key) : Prop :=
  Since (· = .admitted k) (fun d => ∃ keys, d = .pruned keys ∧ k ∈ keys) log

structure TablesSound (g : AdmissionStore) : Prop where
  opKeys : g.opKeys.Nodup
  midKeys : g.midKeys.Nodup
  indexed : ∀ o ∈ g.ops, ∃ m ∈ g.mids, m.key = o.midKey ∧ m.contentSHA256 = o.contentSHA256
  stored : ∀ k, StandsAdmitted g.log k → k ∈ g.opKeys
  once : Each (fun before d => ∀ k, d = .admitted k → ¬StandsAdmitted before k) g.log

structure DecidingSound (g : AdmissionStore) (l : Deciding) : Prop where
  ownMid : ∀ k, l.ownMid = some k → k ∈ g.insertingMids ∧ k ∉ g.midKeys
  ownOp : ∀ k, l.ownOp = some k → k ∈ g.insertingOps ∧ k ∉ g.opKeys
  reliesOn : ∀ k d, l.reliesOn = some (k, d) → ∃ m ∈ g.mids, m.key = k ∧ m.contentSHA256 = d
  deleting : ∀ k ∈ l.deletedMids, k ∈ g.deletingMids
  unused : ∀ o ∈ g.ops, o.midKey ∈ l.deletedMids → o.key ∈ l.deletedOps

/-- Two calls insert and delete different rows, and none deletes what the other relies on. -/
structure Beside (l m : Deciding) : Prop where
  ownMid : ∀ k, l.ownMid = some k → m.ownMid ≠ some k
  ownOp : ∀ k, l.ownOp = some k → m.ownOp ≠ some k
  deleted : ∀ k ∈ l.deletedMids, k ∉ m.deletedMids
  left : ∀ k, l.indexedMid = some k → k ∉ m.deletedMids
  right : ∀ k, m.indexedMid = some k → k ∉ l.deletedMids

variable {l l' : Deciding} {g g' : AdmissionStore} {o : Outcome}
  {s : System AdmissionStore Deciding} {contentSHA256 : ContentDigest} {cutoff : Int}

instance : Std.Symm Beside where
  symm _ _ h :=
    { ownMid := fun k hm hl => h.ownMid k hl hm
      ownOp := fun k hm hl => h.ownOp k hl hm
      deleted := fun k hm hl => h.deleted k hl hm
      left := h.right
      right := h.left }

/-- What holds of the store and all calls. -/
abbrev AdmissionInv : System AdmissionStore Deciding → Prop :=
  Inv TablesSound DecidingSound Beside

/-- A call that has written nothing and relies on nothing. -/
structure Deciding.Idle (l : Deciding) : Prop where
  ownMid : l.ownMid = none
  ownOp : l.ownOp = none
  indexedMid : l.indexedMid = none
  reliesOn : l.reliesOn = none
  deletedMids : l.deletedMids = []

theorem Deciding.Idle.sound (h : l.Idle) (g : AdmissionStore) : DecidingSound g l where
  ownMid k hk := by
    rw [h.ownMid] at hk
    cases hk
  ownOp k hk := by
    rw [h.ownOp] at hk
    cases hk
  reliesOn k d hk := by
    rw [h.reliesOn] at hk
    cases hk
  deleting k hk := by
    rw [h.deletedMids] at hk
    cases hk
  unused o _ hk := by
    rw [h.deletedMids] at hk
    cases hk

theorem Deciding.Idle.beside (h : l.Idle) (m : Deciding) : Beside l m where
  ownMid k hk := by
    rw [h.ownMid] at hk
    cases hk
  ownOp k hk := by
    rw [h.ownOp] at hk
    cases hk
  deleted k hk := by
    rw [h.deletedMids] at hk
    cases hk
  left k hk := by
    rw [h.indexedMid] at hk
    cases hk
  right k _ hk := by
    rw [h.deletedMids] at hk
    cases hk

inductive Decides (g : AdmissionStore) : Deciding → AdmissionStore → Deciding → Prop
  | idle (l l' : Deciding) (hl' : l'.Idle) : Decides g l g l'
  /-- The transaction is rolled back. -/
  | rollback (l l' : Deciding) (hl' : l'.Idle) : Decides g l (g.release l) l'
  | index (op : OpRow) (createdAt : Int) (hfree : op.midKey ∉ g.deletingMids) :
      Decides g (.admitting op createdAt .keyed) g (.admitting op createdAt (.indexed false))
  | indexOwn (op : OpRow) (createdAt : Int) (hfree : op.midKey ∉ g.deletingMids)
      (hown : op.midKey ∉ g.insertingMids) (hnew : op.midKey ∉ g.midKeys) :
      Decides g (.admitting op createdAt .keyed)
        { g with insertingMids := g.insertingMids ++ [op.midKey] }
        (.admitting op createdAt (.indexed true))
  | found (op : OpRow) (createdAt : Int) (own : Bool)
      (hdigest : own = false →
        ∃ m ∈ g.mids, m.key = op.midKey ∧ m.contentSHA256 = op.contentSHA256) :
      Decides g (.admitting op createdAt (.indexed own)) g (.admitting op createdAt (.matched own))
  | insert (op : OpRow) (createdAt : Int) (own : Bool) (hown : op.key ∉ g.insertingOps)
      (hnew : op.key ∉ g.opKeys) :
      Decides g (.admitting op createdAt (.matched own))
        { g with insertingOps := g.insertingOps ++ [op.key] }
        (.admitting op createdAt (.inserted own))
  | admitted (op : OpRow) (createdAt : Int) (own : Bool) :
      Decides g (.admitting op createdAt (.inserted own))
        (((g.commitOp op createdAt own).release
          (.admitting op createdAt (.inserted own))).note (.admitted op.key))
        (.answered .admitted)
  | unseen (op : OpRow) (createdAt : Int) (own : Bool) :
      Decides g (.admitting op createdAt (.inserted own))
        ((g.commitOp op createdAt own).release (.admitting op createdAt (.inserted own)))
        .undecided
  | deleteOps (cutoff : Int) :
      Decides g (.pruning cutoff .begun)
        { g with deletingOps := g.deletingOps ++ expiredOps g cutoff }
        (.pruning cutoff (.opsDeleted (expiredOps g cutoff)))
  | deleteMids (cutoff : Int) (keys : List Key)
      (hfree : ∀ k ∈ unusedMids g cutoff keys, k ∉ g.deletingMids) :
      Decides g (.pruning cutoff (.opsDeleted keys))
        { g with deletingMids := g.deletingMids ++ unusedMids g cutoff keys }
        (.pruning cutoff (.midsDeleted keys (unusedMids g cutoff keys)))
  | prune (cutoff : Int) (keys : List Key) (mids : List MidKey) :
      Decides g (.pruning cutoff (.midsDeleted keys mids))
        ((g.commitPrune keys mids).release (.pruning cutoff (.midsDeleted keys mids))) .pruned

theorem idle_answered (v : Verdict) : (Deciding.answered v).Idle := ⟨rfl, rfl, rfl, rfl, rfl⟩

theorem idle_undecided : Deciding.undecided.Idle := ⟨rfl, rfl, rfl, rfl, rfl⟩

theorem idle_pruned : Deciding.pruned.Idle := ⟨rfl, rfl, rfl, rfl, rfl⟩

theorem decides_of_admitting {op : OpRow} {createdAt : Int} {stage : AdmitStage}
    (h : admitMsgOp g op createdAt stage o = some (g', l')) :
    Decides g (.admitting op createdAt stage) g' l' := by
  revert h
  fun_cases admitMsgOp g op createdAt stage o with rintro ⟨⟩
  | case1 => exact .idle _ _ (idle_answered _)
  | case2 => exact .idle _ _ ⟨rfl, rfl, rfl, rfl, rfl⟩
  | case3 | case4 => exact .idle _ _ idle_undecided
  | case6 hdone hfree => exact .index op createdAt (not_or.1 hfree).2
  | case7 hdone hfree hnew =>
    exact .indexOwn op createdAt (not_or.1 hfree).2 (not_or.1 hfree).1 hnew
  | case9 own hdone digest hdigest =>
    refine .found op createdAt own fun hown => ?_
    subst hown
    obtain ⟨m, hm, hmd⟩ := Option.map_eq_some_iff.1 hdigest
    have hkey := find?_some hm
    exact ⟨m, mem_of_find?_eq_some hm, by simpa using hkey, hmd⟩
  | case10 => exact .rollback _ _ (idle_answered _)
  | case14 => exact .rollback _ _ ⟨rfl, rfl, rfl, rfl, rfl⟩
  | case15 own hdone hfree hnew => exact .insert op createdAt own (not_or.1 hfree).1 hnew
  | case16 own => exact .admitted op createdAt own
  | case17 own => exact .unseen op createdAt own
  | case8 | case11 | case12 | case18 => exact .rollback _ _ idle_undecided

theorem decides_of_pruning {stage : PruneStage} (h : pruneMsgOps g cutoff stage o = some (g', l')) :
    Decides g (.pruning cutoff stage) g' l' := by
  revert h
  fun_cases pruneMsgOps g cutoff stage o with rintro ⟨⟩
  | case1 => exact .idle _ _ idle_pruned
  | case3 => exact .deleteOps cutoff
  | case6 keys mids hdone hfree =>
    refine .deleteMids cutoff keys fun k hk hdeleting => hfree ?_
    exact any_eq_true.2 ⟨k, hk, decide_eq_true hdeleting⟩
  | case7 keys mids => exact .prune cutoff keys mids
  | case4 | case8 => exact .rollback _ _ idle_pruned

theorem decides_of_eq (h : decideNext g l o = some (g', l')) : Decides g l g' l' := by
  revert h
  fun_cases decideNext g l o with
  | case8 => exact decides_of_admitting
  | case12 => exact decides_of_pruning
  | case1 | case2 | case6 | case9 =>
    rintro ⟨⟩
    exact .idle _ _ (idle_answered _)
  | case3 | case5 =>
    rintro ⟨⟩
    exact .idle _ _ ⟨rfl, rfl, rfl, rfl, rfl⟩
  | case4 | case7 | case10 | case11 =>
    rintro ⟨⟩
    exact .idle _ _ idle_undecided
  | case13 | case14 | case15 => rintro ⟨⟩

variable {g : AdmissionStore} {l m : Deciding} {k : MidKey}

theorem Deciding.indexedMid_of_reliesOn {d : String} (h : m.reliesOn = some (k, d)) :
    m.indexedMid = some k := by
  cases m with
  | admitting op createdAt stage =>
    cases stage with
    | matched own | inserted own =>
      cases own with cases h
      | false => rfl
    | _ => cases h
  | _ => cases h

theorem DecidingSound.release (h : DecidingSound g m) (hbeside : Beside l m) :
    DecidingSound (g.release l) m where
  ownMid k hk := by
    refine ⟨mem_filter.2 ⟨(h.ownMid k hk).1, decide_eq_true fun hl => ?_⟩, (h.ownMid k hk).2⟩
    exact hbeside.ownMid k hl hk
  ownOp k hk := by
    refine ⟨mem_filter.2 ⟨(h.ownOp k hk).1, decide_eq_true fun hl => ?_⟩, (h.ownOp k hk).2⟩
    exact hbeside.ownOp k hl hk
  reliesOn := h.reliesOn
  deleting k hk := by
    refine mem_filter.2 ⟨h.deleting k hk, decide_eq_true fun hl => ?_⟩
    exact hbeside.deleted k hl hk
  unused := h.unused

theorem TablesSound.of_eq (h : TablesSound g) (hops : g'.ops = g.ops) (hmids : g'.mids = g.mids)
    (hlog : g'.log = g.log) : TablesSound g' := by
  obtain ⟨hopKeys, hmidKeys, hindexed, hstored, honce⟩ := h
  refine ⟨?_, ?_, ?_, ?_, ?_⟩
  · rw [AdmissionStore.opKeys, hops]
    exact hopKeys
  · rw [AdmissionStore.midKeys, hmids]
    exact hmidKeys
  · rw [hops, hmids]
    exact hindexed
  · rw [AdmissionStore.opKeys, hops, hlog]
    exact hstored
  · rw [hlog]
    exact honce

variable {op : OpRow} {createdAt : Int} {own : Bool} {keys : List Key} {mids : List MidKey}

@[simp] theorem opKeys_commitOp : (g.commitOp op createdAt own).opKeys = g.opKeys ++ [op.key] := by
  simp [AdmissionStore.opKeys, AdmissionStore.commitOp]

theorem mem_mids_commitOp {r : MidRow} (h : r ∈ g.mids) :
    r ∈ (g.commitOp op createdAt own).mids := by
  simp only [AdmissionStore.commitOp]
  split
  · exact mem_append_left _ h
  · exact h

theorem mem_midKeys_commitOp (h : k ∈ (g.commitOp op createdAt own).midKeys) :
    k ∈ g.midKeys ∨ own ∧ k = op.midKey := by
  simp only [AdmissionStore.midKeys, AdmissionStore.commitOp] at h ⊢
  cases own with
  | false => exact .inl h
  | true =>
    rw [if_pos rfl, map_append, map_singleton, mem_append, mem_singleton] at h
    exact h.imp_right fun hk => ⟨rfl, hk⟩

theorem ownMid_inserted (h : own) :
    (Deciding.admitting op createdAt (.inserted own)).ownMid = some op.midKey := by
  subst h
  rfl

theorem DecidingSound.commitOp (h : DecidingSound g m)
    (hbeside : Beside (.admitting op createdAt (.inserted own)) m) :
    DecidingSound (g.commitOp op createdAt own) m where
  ownMid k hk := by
    refine ⟨(h.ownMid k hk).1, fun hmem => ?_⟩
    obtain hold | ⟨hown, rfl⟩ := mem_midKeys_commitOp hmem
    · exact (h.ownMid k hk).2 hold
    · exact hbeside.ownMid _ (ownMid_inserted hown) hk
  ownOp k hk := by
    refine ⟨(h.ownOp k hk).1, fun hmem => ?_⟩
    rw [opKeys_commitOp] at hmem
    obtain hold | hnew := mem_append.1 hmem
    · exact (h.ownOp k hk).2 hold
    · exact hbeside.ownOp op.key rfl (mem_singleton.1 hnew ▸ hk)
  reliesOn k d hk := by
    obtain ⟨r, hr, hrow⟩ := h.reliesOn k d hk
    exact ⟨r, mem_mids_commitOp hr, hrow⟩
  deleting := h.deleting
  unused := all_mem_snoc h.unused fun hmid => absurd hmid (hbeside.left _ rfl)

theorem DecidingSound.commitPrune (h : DecidingSound g m)
    (hbeside : Beside (.pruning cutoff (.midsDeleted keys mids)) m) :
    DecidingSound (g.commitPrune keys mids) m where
  ownMid k hk := by
    refine ⟨(h.ownMid k hk).1, fun hmem => (h.ownMid k hk).2 ?_⟩
    exact (filter_sublist.map _).subset hmem
  ownOp k hk := by
    refine ⟨(h.ownOp k hk).1, fun hmem => (h.ownOp k hk).2 ?_⟩
    exact (filter_sublist.map _).subset hmem
  reliesOn k d hk := by
    obtain ⟨r, hr, hkey, hdigest⟩ := h.reliesOn k d hk
    have hnot : k ∉ mids := hbeside.right k (Deciding.indexedMid_of_reliesOn hk)
    exact ⟨r, mem_filter.2 ⟨hr, decide_eq_true (hkey ▸ hnot)⟩, hkey, hdigest⟩
  deleting := h.deleting
  unused o ho hmid := h.unused o (mem_filter.1 ho).1 hmid

variable {log : List Decided}

theorem standsAdmitted_admitted {k k' : Key} :
    StandsAdmitted (log ++ [.admitted k]) k' ↔ k = k' ∨ StandsAdmitted log k' := by
  unfold StandsAdmitted
  rw [since_snoc]
  simp

theorem standsAdmitted_pruned {k : Key} :
    StandsAdmitted (log ++ [.pruned keys]) k ↔ k ∉ keys ∧ StandsAdmitted log k := by
  unfold StandsAdmitted
  rw [since_snoc]
  simp

theorem commitOp_tables (h : TablesSound g)
    (hl : DecidingSound g (.admitting op createdAt (.inserted own))) :
    TablesSound (g.commitOp op createdAt own) where
  opKeys := by
    rw [opKeys_commitOp, ← concat_eq_append]
    exact h.opKeys.concat (hl.ownOp op.key rfl).2
  midKeys := by
    cases own with
    | false => exact h.midKeys
    | true =>
      have hkeys : (g.commitOp op createdAt true).midKeys = g.midKeys ++ [op.midKey] := by
        simp [AdmissionStore.midKeys, AdmissionStore.commitOp]
      rw [hkeys, ← concat_eq_append]
      exact h.midKeys.concat (hl.ownMid op.midKey rfl).2
  indexed o ho := by
    obtain hold | hnew := mem_append.1 ho
    · obtain ⟨r, hr, hrow⟩ := h.indexed o hold
      exact ⟨r, mem_mids_commitOp hr, hrow⟩
    · obtain rfl := mem_singleton.1 hnew
      cases own with
      | true =>
        exact ⟨⟨o.midKey, o.contentSHA256, createdAt⟩,
          mem_append_right _ (mem_singleton.2 rfl), rfl, rfl⟩
      | false => exact hl.reliesOn o.midKey o.contentSHA256 rfl
  stored k hk := by
    rw [opKeys_commitOp]
    exact mem_append_left _ (h.stored k hk)
  once := h.once

theorem note_tables (h : TablesSound g) {k : Key} (hnew : ¬StandsAdmitted g.log k)
    (hstored : k ∈ g.opKeys) : TablesSound (g.note (.admitted k)) where
  opKeys := h.opKeys
  midKeys := h.midKeys
  indexed := h.indexed
  stored k' hk' := by
    obtain rfl | hbefore := standsAdmitted_admitted.1 hk'
    · exact hstored
    · exact h.stored k' hbefore
  once := by
    refine each_snoc.2 ⟨h.once, fun k' hk' => ?_⟩
    cases hk'
    exact hnew

theorem commitPrune_tables (h : TablesSound g)
    (hl : DecidingSound g (.pruning cutoff (.midsDeleted keys mids))) :
    TablesSound (g.commitPrune keys mids) where
  opKeys := h.opKeys.sublist (filter_sublist.map _)
  midKeys := h.midKeys.sublist (filter_sublist.map _)
  indexed o ho := by
    obtain ⟨hold, hkept⟩ := mem_filter.1 ho
    obtain ⟨r, hr, hkey, hdigest⟩ := h.indexed o hold
    have hnot : r.key ∉ mids := by
      rw [hkey]
      exact fun hmid => of_decide_eq_true hkept (hl.unused o hold hmid)
    exact ⟨r, mem_filter.2 ⟨hr, decide_eq_true hnot⟩, hkey, hdigest⟩
  stored k hk := by
    obtain ⟨hkept, hbefore⟩ := standsAdmitted_pruned.1 hk
    obtain ⟨o, ho, rfl⟩ := mem_map.1 (h.stored k hbefore)
    exact mem_map.2 ⟨o, mem_filter.2 ⟨ho, decide_eq_true hkept⟩, rfl⟩
  once := by
    refine each_snoc.2 ⟨h.once, fun k hk => ?_⟩
    cases hk

def pruneClear (s : System AdmissionStore Deciding) : Interleaving.Event Deed Outcome → Bool
  | .start _ => true
  | .act i _ =>
    match s.calls[i]? with
    | some (.pruning cutoff (.opsDeleted keys)) =>
      s.calls.all fun l =>
        (unusedMids s.shared cutoff keys).all fun k => l.indexedMid ≠ some k
    | _ => true

theorem not_indexed_of_clear {i : Nat} (h : pruneClear s (.act i o))
    (hi : s.calls[i]? = some (.pruning cutoff (.opsDeleted keys))) :
    ∀ l ∈ s.calls, ∀ k, l.indexedMid = some k → k ∉ unusedMids s.shared cutoff keys := by
  intro l hl k hk hmem
  simp only [pruneClear, hi, all_eq_true] at h
  exact of_decide_eq_true (h l hl k hmem) hk

variable {s : System AdmissionStore Deciding} {i : Nat} {cutoff : Int} {keys : List Key}
  {mids : List MidKey}

section
variable (h : AdmissionInv s)
include h

section
variable (hi : s.calls[i]? = some (.admitting op createdAt .keyed))
  (hfree : op.midKey ∉ s.shared.deletingMids)
include hi hfree

theorem AdmissionInv.index :
    AdmissionInv ⟨s.shared, s.calls.set i (.admitting op createdAt (.indexed false))⟩ := by
  have hlocal : DecidingSound s.shared (.admitting op createdAt (.indexed false)) :=
    ⟨nofun, nofun, nofun, nofun, nofun⟩
  refine h.acted hi h.shared hlocal fun m _ hm _ => ⟨hm, ?_⟩
  refine ⟨nofun, nofun, nofun, fun k hk hdeleted => ?_, nofun⟩
  cases hk
  exact hfree (hm.deleting _ hdeleted)

theorem AdmissionInv.indexOwn (hown : op.midKey ∉ s.shared.insertingMids)
    (hnew : op.midKey ∉ s.shared.midKeys) :
    AdmissionInv
      ⟨{ s.shared with insertingMids := s.shared.insertingMids ++ [op.midKey] },
        s.calls.set i (.admitting op createdAt (.indexed true))⟩ := by
  refine h.acted hi (h.shared.of_eq rfl rfl rfl)
    ⟨fun k hk => ?_, nofun, nofun, nofun, nofun⟩ fun m _ hm _ => ⟨⟨fun k hk => ?_, hm.ownOp,
      hm.reliesOn, hm.deleting, hm.unused⟩, fun k hk hk' => ?_, nofun, nofun, fun k hk hdel => ?_,
      nofun⟩
  · cases hk
    exact ⟨mem_append_right _ (mem_singleton.2 rfl), hnew⟩
  · exact ⟨mem_append_left _ (hm.ownMid k hk).1, (hm.ownMid k hk).2⟩
  · cases hk
    exact hown (hm.ownMid _ hk').1
  · cases hk
    exact hfree (hm.deleting _ hdel)

end

theorem AdmissionInv.found (hi : s.calls[i]? = some (.admitting op createdAt (.indexed own)))
    (hdigest : own = false →
      ∃ m ∈ s.shared.mids, m.key = op.midKey ∧ m.contentSHA256 = op.contentSHA256) :
    AdmissionInv ⟨s.shared, s.calls.set i (.admitting op createdAt (.matched own))⟩ := by
  have hlocal := h.call hi
  refine h.acted hi h.shared ⟨?_, nofun, ?_, nofun, nofun⟩
    fun m _ hm hbeside => ⟨hm, ?_, nofun, nofun, hbeside.left, nofun⟩
  · cases own with
    | true => exact hlocal.ownMid
    | false => exact nofun
  · intro k d hk
    cases own with cases hk
    | false => exact hdigest rfl
  · cases own with
    | true => exact hbeside.ownMid
    | false => exact nofun

theorem AdmissionInv.insert (hi : s.calls[i]? = some (.admitting op createdAt (.matched own)))
    (hown : op.key ∉ s.shared.insertingOps) (hnew : op.key ∉ s.shared.opKeys) :
    AdmissionInv
      ⟨{ s.shared with insertingOps := s.shared.insertingOps ++ [op.key] },
        s.calls.set i (.admitting op createdAt (.inserted own))⟩ := by
  have hlocal := h.call hi
  refine h.acted hi (h.shared.of_eq rfl rfl rfl)
    ⟨?_, fun k hk => ?_, ?_, nofun, nofun⟩ fun m _ hm hbeside => ⟨⟨hm.ownMid, fun k hk => ?_,
      hm.reliesOn, hm.deleting, hm.unused⟩, ?_, fun k hk hk' => ?_, nofun, hbeside.left, nofun⟩
  · cases own with
    | true => exact hlocal.ownMid
    | false => exact nofun
  · cases hk
    exact ⟨mem_append_right _ (mem_singleton.2 rfl), hnew⟩
  · cases own with
    | true => exact nofun
    | false => exact hlocal.reliesOn
  · exact ⟨mem_append_left _ (hm.ownOp k hk).1, (hm.ownOp k hk).2⟩
  · cases own with
    | true => exact hbeside.ownMid
    | false => exact nofun
  · cases hk
    exact hown (hm.ownOp _ hk').1

section
variable (hi : s.calls[i]? = some (.admitting op createdAt (.inserted own)))
include hi

theorem AdmissionInv.unseen {l' : Deciding} (hl' : l'.Idle) : AdmissionInv
      ⟨(s.shared.commitOp op createdAt own).release (.admitting op createdAt (.inserted own)),
        s.calls.set i l'⟩ := by
  have hlocal := h.call hi
  have htables := commitOp_tables h.shared hlocal
  exact h.acted hi (htables.of_eq rfl rfl rfl) (hl'.sound _)
    fun m _ hm hbeside => ⟨(hm.commitOp hbeside).release hbeside, hl'.beside m⟩

theorem AdmissionInv.admitted : AdmissionInv ⟨((s.shared.commitOp op createdAt own).release
          (.admitting op createdAt (.inserted own))).note (.admitted op.key),
        s.calls.set i (.answered .admitted)⟩ := by
  have hlocal := h.call hi
  have hinv := h.unseen hi (idle_answered .admitted)
  refine ⟨note_tables hinv.shared ?_ ?_, fun m hm => ?_, hinv.between⟩
  · exact fun hstands => (hlocal.ownOp op.key rfl).2 (h.shared.stored op.key hstands)
  · show op.key ∈ (s.shared.commitOp op createdAt own).opKeys
    rw [opKeys_commitOp]
    exact mem_append_right _ (mem_singleton.2 rfl)
  · have hsound := hinv.calls m hm
    exact ⟨hsound.ownMid, hsound.ownOp, hsound.reliesOn, hsound.deleting, hsound.unused⟩

end

theorem AdmissionInv.deleteOps (hi : s.calls[i]? = some (.pruning cutoff .begun)) : AdmissionInv
      ⟨{ s.shared with deletingOps := s.shared.deletingOps ++ expiredOps s.shared cutoff },
        s.calls.set i (.pruning cutoff (.opsDeleted (expiredOps s.shared cutoff)))⟩ := by
  have hidle : (Deciding.pruning cutoff (.opsDeleted (expiredOps s.shared cutoff))).Idle :=
    ⟨rfl, rfl, rfl, rfl, rfl⟩
  exact h.acted hi (h.shared.of_eq rfl rfl rfl) (hidle.sound _)
    fun m _ hm _ => ⟨⟨hm.ownMid, hm.ownOp, hm.reliesOn, hm.deleting, hm.unused⟩, hidle.beside m⟩

end

theorem key_mem_of_unused {o : OpRow} (ho : o ∈ g.ops)
    (hmid : o.midKey ∈ unusedMids g cutoff keys) : o.key ∈ keys := by
  obtain ⟨r, hr, hkey⟩ := mem_map.1 hmid
  have hunused := (of_decide_eq_true (mem_filter.1 hr).2).2
  by_contra hnot
  exact hunused (any_eq_true.2 ⟨o, ho, decide_eq_true ⟨hnot, hkey.symm⟩⟩)

section
variable (h : AdmissionInv s)
include h

theorem AdmissionInv.deleteMids (hi : s.calls[i]? = some (.pruning cutoff (.opsDeleted keys)))
    (hfree : ∀ k ∈ unusedMids s.shared cutoff keys, k ∉ s.shared.deletingMids)
    (hclear : ∀ l ∈ s.calls, ∀ k, l.indexedMid = some k →
      k ∉ unusedMids s.shared cutoff keys) :
    AdmissionInv
      ⟨{ s.shared with
          deletingMids := s.shared.deletingMids ++ unusedMids s.shared cutoff keys },
        s.calls.set i (.pruning cutoff (.midsDeleted keys (unusedMids s.shared cutoff keys)))⟩ := by
  refine h.acted hi (h.shared.of_eq rfl rfl rfl)
    ⟨nofun, nofun, nofun, fun k hk => mem_append_right _ hk,
      fun o ho hmid => key_mem_of_unused ho hmid⟩
    fun m hmem hm _ => ⟨⟨hm.ownMid, hm.ownOp, hm.reliesOn, fun k hk => ?_, hm.unused⟩,
      nofun, nofun, fun k hk hk' => ?_, nofun, hclear m hmem⟩
  · exact mem_append_left _ (hm.deleting k hk)
  · exact hfree k hk (hm.deleting k hk')

theorem AdmissionInv.prune (hi : s.calls[i]? = some (.pruning cutoff (.midsDeleted keys mids))) :
    AdmissionInv
      ⟨(s.shared.commitPrune keys mids).release (.pruning cutoff (.midsDeleted keys mids)),
        s.calls.set i .pruned⟩ := by
  have hlocal := h.call hi
  have htables := commitPrune_tables h.shared hlocal
  exact h.acted hi (htables.of_eq rfl rfl rfl) (idle_pruned.sound _)
    fun m _ hm hbeside => ⟨(hm.commitPrune hbeside).release hbeside, idle_pruned.beside m⟩

theorem decides_inv (hclear : pruneClear s (.act i o)) (hi : s.calls[i]? = some l)
    (hdecides : Decides s.shared l g l') : AdmissionInv ⟨g, s.calls.set i l'⟩ := by
  cases hdecides with
  | idle l l' hl' => exact h.acted hi h.shared (hl'.sound _) fun m _ hm _ => ⟨hm, hl'.beside m⟩
  | rollback l l' hl' =>
    exact h.acted hi (h.shared.of_eq rfl rfl rfl) (hl'.sound _)
      fun m _ hm hbeside => ⟨hm.release hbeside, hl'.beside m⟩
  | index op createdAt hfree => exact h.index hi hfree
  | indexOwn op createdAt hfree hown hnew => exact h.indexOwn hi hfree hown hnew
  | found op createdAt own hdigest => exact h.found hi hdigest
  | insert op createdAt own hown hnew => exact h.insert hi hown hnew
  | admitted op createdAt own => exact h.admitted hi
  | unseen op createdAt own => exact h.unseen hi idle_undecided
  | deleteOps cutoff => exact h.deleteOps hi
  | deleteMids cutoff keys hfree => exact h.deleteMids hi hfree (not_indexed_of_clear hclear hi)
  | prune cutoff keys mids => exact h.prune hi

theorem beginDeciding_inv {b : Deed} (hstart : beginDeciding contentSHA256 s.shared b = some (g, l))
    : AdmissionInv ⟨g, s.calls ++ [l]⟩ := by
  have hidle {d : Deciding} (hd : d.Idle) : AdmissionInv ⟨s.shared, s.calls ++ [d]⟩ :=
    h.begun h.shared (hd.sound _) fun m _ hm => ⟨hm, Std.Symm.symm _ _ (hd.beside m)⟩
  revert hstart
  fun_cases beginDeciding contentSHA256 s.shared b with rintro ⟨⟩
  | case1 => exact hidle (idle_answered _)
  | case2 | case3 => exact hidle ⟨rfl, rfl, rfl, rfl, rfl⟩
  | case4 bridges =>
    exact h.begun (h.shared.of_eq rfl rfl rfl) (idle_pruned.sound _)
      fun m _ hm => ⟨⟨hm.ownMid, hm.ownOp, hm.reliesOn, hm.deleting, hm.unused⟩,
        Std.Symm.symm _ _ (idle_pruned.beside m)⟩

end

theorem admission_inv
    (hs : Reaches (step (admissionProgram contentSHA256)) (fun s e => pruneClear s e)
      ⟨AdmissionStore.empty, []⟩ s) : AdmissionInv s := by
  apply hs.invariant
  · exact Inv.nil ⟨nodup_nil, nodup_nil, nofun, fun k hk => absurd hk not_since_nil, each_nil⟩
  · intro t t' e h hclear hstep
    obtain ⟨b, g, l, hstart⟩ | ⟨i, o, l, g, l', hi, hact⟩ := step_cases hstep
    · exact beginDeciding_inv h hstart
    · exact decides_inv h hclear hi (decides_of_eq hact)

def OneContent (g : AdmissionStore) : Prop :=
  ∀ o ∈ g.ops, ∀ o' ∈ g.ops, o.midKey = o'.midKey → o.contentSHA256 = o'.contentSHA256

def AdmittedOnce (log : List Decided) : Prop :=
  ∀ before k between after, log = before ++ .admitted k :: (between ++ .admitted k :: after) →
    ∃ keys, .pruned keys ∈ between ∧ k ∈ keys

theorem TablesSound.oneContent (h : TablesSound g) : OneContent g := by
  intro o ho o' ho' hmid
  obtain ⟨r, hr, hkey, hdigest⟩ := h.indexed o ho
  obtain ⟨r', hr', hkey', hdigest'⟩ := h.indexed o' ho'
  have hsame : r = r' := inj_on_of_nodup_map h.midKeys hr hr' (hkey.trans (hmid.trans hkey'.symm))
  rw [← hdigest, ← hdigest', hsame]

theorem TablesSound.admittedOnce (h : TablesSound g) : AdmittedOnce g.log := by
  intro before k between after hlog
  by_contra hnot
  apply h.once (before ++ .admitted k :: between) (.admitted k) after (by simp [hlog]) k rfl
  refine ⟨before, .admitted k, between, rfl, rfl, ?_⟩
  rintro d hd ⟨keys, rfl, hk⟩
  exact hnot ⟨keys, hd, hk⟩

/-- A call of `Submit` that is under way. -/
def Deciding.submits : Deciding → Bool
  | .looking .. => true
  | .asking .. => true
  | .admitting .. => true
  | .rereading .. => true
  | _ => false

theorem Decides.tables (h : Decides g l g' l') (hl : l.submits) :
    (g'.ops = g.ops ∧ g'.mids = g.mids) ∨ l' = .answered .admitted ∨ l' = .undecided := by
  cases h with
  | idle l l' hl' | rollback l l' hl' | index op createdAt hfree
  | indexOwn op createdAt hfree hown hnew | found op createdAt own hdigest
  | insert op createdAt own hown hnew => exact .inl ⟨rfl, rfl⟩
  | admitted op createdAt own => exact .inr (.inl rfl)
  | unseen op createdAt own => exact .inr (.inr rfl)
  | deleteOps cutoff | deleteMids cutoff keys hfree | prune cutoff keys mids => cases hl

/-- In every run in which no prune deletes a mid that an admission under way has indexed: one
operation for a key, one content for a mid, one admission of a key between two prunes of it; and
a step of a submission that is answered otherwise than `Admitted` leaves both tables as they are,
its last step and all before. -/
theorem admission_keeps_index (contentSHA256 : ContentDigest) {s : System AdmissionStore Deciding}
    (hs : Reaches (step (admissionProgram contentSHA256)) (fun s e => pruneClear s e = true)
      ⟨AdmissionStore.empty, []⟩ s) :
    s.shared.opKeys.Nodup ∧ OneContent s.shared ∧ AdmittedOnce s.shared.log ∧
      ∀ i o t l, step (admissionProgram contentSHA256) s (.act i o) = some t →
        s.calls[i]? = some l → l.submits = true →
        (t.shared.ops = s.shared.ops ∧ t.shared.mids = s.shared.mids) ∨
          t.calls[i]? = some (.answered .admitted) ∨ t.calls[i]? = some .undecided := by
  have hinv := admission_inv hs
  refine ⟨hinv.shared.opKeys, hinv.shared.oneContent, hinv.shared.admittedOnce, ?_⟩
  intro i o t l hstep hl hsubmits
  obtain _ | ⟨_, _, l₀, g, l', hi, hact⟩ := step_cases hstep
  cases hl.symm.trans hi
  have hlt : i < s.calls.length := (List.getElem?_eq_some_iff.1 hi).1
  rw [getElem?_set_self hlt]
  obtain hsame | rfl | rfl := (decides_of_eq hact).tables hsubmits
  · exact .inl hsame
  · exact .inr (.inl rfl)
  · exact .inr (.inr rfl)

def submissionOf (opID body : String) (expiresAt : Int) : Submission :=
  ⟨1, opID, "01890000-0000-7000-8000-00000000000a", "bridge:b", contentTypeText, 1000, expiresAt,
    body, body⟩

def bodyDigest : ContentDigest := fun _ _ _ _ body => some body

def firstOp : Submission := submissionOf "01890000-0000-7000-8000-000000000001" "hello" 10

def secondOp : Submission := submissionOf "01890000-0000-7000-8000-000000000002" "hello" 500

def otherContent : Submission := submissionOf "01890000-0000-7000-8000-000000000003" "other" 500

/-- A bridge, and an operation whose deadline is soon. -/
def firstAdmitted : List (Interleaving.Event Deed Outcome) :=
  [.start (.bridges [("t", "b")]), .start (.submit "t" "a" firstOp 0 0)] ++
    List.replicate 7 (.act 1 .done)

/-- A call goes on so many times. -/
def goesOn (i n : Nat) : List (Interleaving.Event Deed Outcome) := List.replicate n (.act i .done)

def prunedAfterwards : List (Interleaving.Event Deed Outcome) :=
  List.flatten [firstAdmitted, [.start (.submit "t" "a" secondOp 5 5)], goesOn 2 7,
    [.start (.submit "t" "a" otherContent 6 6)], goesOn 3 5, [.start (.prune 100)], goesOn 4 3]

/-- A prune while an operation of the same mid is being decided, and then one of other
content. -/
def prunedBetween : List (Interleaving.Event Deed Outcome) :=
  List.flatten [firstAdmitted, [.start (.submit "t" "a" secondOp 200 200)], goesOn 2 5,
    [.start (.prune 100)], goesOn 3 3, goesOn 2 2,
    [.start (.submit "t" "a" otherContent 201 201)], goesOn 4 7]

/-- A second operation of the same mid and content is stored, a third one of other content is
refused, and then the first one is pruned. -/
theorem admission_keeps_index_of_two :
    ∃ s, Reaches (step (admissionProgram bodyDigest)) (fun s e => pruneClear s e = true)
        ⟨AdmissionStore.empty, []⟩ s ∧
      s.shared.ops = [secondOp.row "t" "bridge:a"] ∧ OneContent s.shared ∧
      AdmittedOnce s.shared.log := by
  refine exists_reaches_and_of_decide prunedAfterwards (by decide +kernel) fun s hs => ?_
  obtain ⟨-, hcontent, honce, -⟩ := admission_keeps_index bodyDigest hs
  exact ⟨hcontent, honce⟩

/-- An admission has found its mid in the index when a prune deletes the row; its operation is
stored all the same, and the next one takes the mid for another content. -/
theorem prune_frees_mid_in_use :
    ¬∀ s, Reaches (step (admissionProgram bodyDigest)) (fun _ _ => True)
      ⟨AdmissionStore.empty, []⟩ s → OneContent s.shared := by
  refine not_forall_of_decide
    (P := fun s => s.shared.ops = [secondOp.row "t" "bridge:a", otherContent.row "t" "bridge:a"])
    prunedBetween (by decide +kernel) fun s hops hall => ?_
  have hcontent := hall (secondOp.row "t" "bridge:a") (by simp [hops])
    (otherContent.row "t" "bridge:a") (by simp [hops]) rfl
  revert hcontent
  decide

end MeshsatHub.Hubmsg
