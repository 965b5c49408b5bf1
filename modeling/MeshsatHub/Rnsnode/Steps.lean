import MeshsatHub.Rnsnode.Bindings

/-!
# The locked steps keep the tables in order

Each step of a call has one lemma of one shape: it keeps what holds of the tables, the call knows
afterwards what it should know, the other calls lose nothing, and what is out of order afterwards
was so before or is now in the hands of the call. `clear` is the condition on the other calls under
which a step may be taken.
-/

namespace MeshsatHub.Rnsnode
open Interleaving List Option

/-- What a step of a call from `l` to `l'` does. -/
structure Kept (g : Store) (l : Call) (clear : Call → Prop) (g' : Store) (l' : Call) : Prop where
  shared : Shared g'
  call : Local g' l'
  others : ∀ m, clear m → Local g m → Between l m → Local g' m ∧ Between l' m
  unbinding : ∀ id, OwesUnbinding g' id →
    l'.unbinds = some id ∨ OwesUnbinding g id ∧ l.unbinds ≠ some id
  unlisting : ∀ q, OwesUnlisting g' q →
    l'.unlists = some q ∨ OwesUnlisting g q ∧ l.unlists ≠ some q
  listed : ∀ n id, id ∈ g'.ifaces n → id ∈ g.ifaces n ∨ ∃ key, l = .inserting id n key
  working : ∀ id, l'.worksOn = some id →
    l.worksOn = some id ∨ id ∈ g.conns ∨ ∃ n key, l = .inserting id n key
  log : ∀ e ∈ g.log, e ∈ g'.log

variable {g : Store} {l l' m : Call} {ids : List Nat} {after : After}

@[simp] theorem reads_closePublic : (closePublic ids after).reads = after.reads := by
  cases ids with
  | nil => cases after <;> rfl
  | cons id rest => rfl

@[simp] theorem revokes_closePublic : (closePublic ids after).revokes = after.revokes := by
  cases ids with
  | nil => cases after <;> rfl
  | cons id rest => rfl

@[simp] theorem enters_closePublic : (closePublic ids after).enters = none := by
  cases ids with
  | nil => cases after <;> rfl
  | cons id rest => rfl

@[simp] theorem worksOn_closePublic : (closePublic ids after).worksOn = none := by
  cases ids with
  | nil => cases after <;> rfl
  | cons id rest => rfl

theorem local_closePublic (h : Closing g ids after) : Local g (closePublic ids after) := by
  cases ids with
  | nil =>
    cases after with
    | reading id => exact h.1
    | returned r => exact h.2
  | cons id rest => exact h

variable {cands : List Nat} {frame : Frame} {id : Nat} {r : Return}

theorem local_tryNext (h : Sorting g id) : Local g (tryNext id frame cands) := by
  cases cands with
  | nil => exact h.opened
  | cons c rest => exact h

@[simp] theorem reads_tryNext : (tryNext id frame cands).reads = some id := by
  cases cands <;> rfl

/-- The call stays the read loop that it was, and takes on nothing that concerns others. -/
structure Follows (l l' : Call) : Prop where
  reads : ∀ id, l'.reads = some id → l.reads = some id
  enters : ∀ n, l'.enters = some n → l.enters = some n
  revokes : ∀ n, l'.revokes = some (.released n) → l.revokes = some (.released n)

theorem Follows.between (h : Follows l l') (hb : Between l m) : Between l' m where
  readers := fun id hl => hb.readers id (h.reads id hl)
  left := fun n hl => hb.left n (h.revokes n hl)
  right := fun n hm hl => hb.right n hm (h.enters n hl)

theorem follows_reading (hl : l.reads = some id) : Follows l (.reading id) where
  reads := fun _ h => hl.trans h
  enters := nofun
  revokes := nofun

theorem follows_tryNext (hl : l.reads = some id) : Follows l (tryNext id frame cands) := by
  refine ⟨fun c hc => ?_, fun n hn => ?_, fun n hn => ?_⟩
  · rw [reads_tryNext] at hc
    exact hl.trans hc
  · cases cands <;> cases hn
  · cases cands <;> cases hn

theorem follows_closePublic (hreads : l.reads = after.reads)
    (hrevokes : l.revokes = after.revokes) : Follows l (closePublic ids after) := by
  refine ⟨fun c hc => ?_, fun n hn => ?_, fun n hn => ?_⟩
  · rwa [reads_closePublic, ← hreads] at hc
  · rw [enters_closePublic] at hn
    cases hn
  · rwa [revokes_closePublic, ← hrevokes] at hn

theorem lasting_of_revokes (hm : m.revokes = some r) (h : Local g m) : Lasting g r := by
  cases m with
  | closing id rest after | removing id rest after | unbinding id rest after
  | unlisting id n rest after =>
    cases after with cases hm
    | returned r' => exact h.2.1
  | returned r' =>
    cases hm
    exact h.1
  | _ => cases hm

section
variable (hg : Shared g)
include hg

theorem le_next_of_reads (hm : m.reads = some id) (h : Local g m) : id ≤ g.next := by
  cases m with
  | announcing c =>
    cases hm
    exact h.1
  | reading c | receiving c | unmatching c =>
    cases hm
    exact hg.opened_le _ h
  | bindingMain c | listing c | trying c =>
    cases hm
    exact hg.opened_le _ h.opened
  | checking c | binding c =>
    cases hm
    exact hg.opened_le _ h.1.opened
  | inserting c | confirming c | withdrawing c | handing c =>
    cases hm
    exact hg.opened_le _ h.1
  | closing c rest after | removing c rest after | unbinding c rest after
  | unlisting c n rest after =>
    cases after with cases hm
    | reading c' => exact hg.opened_le _ h.1
  | releasing | sending | writing | dropping | returned => cases hm

omit hg in
theorem remove_of_not_mem (h : id ∉ g.conns) : g.remove id = g := by
  have hconns : g.conns.filter (· ≠ id) = g.conns := by
    rw [filter_eq_self]
    intro c hc
    have hne : c ≠ id := fun heq => h (heq ▸ hc)
    simpa using hne
  unfold Store.remove
  rw [hconns]

variable {clear : Call → Prop} {n : Nat} {rest : List Nat}

theorem Kept.pass (hl' : Local g l')
    (hbetween : ∀ m, clear m → Local g m → Between l m → Between l' m) (hunbinds : l.unbinds = none)
    (hunlists : ∀ q, l.unlists = some q → l'.unlists = some q ∨ g.bindings q.1 ≠ none)
    (hworking : ∀ id, l'.worksOn = some id → l.worksOn = some id) : Kept g l clear g l' where
  shared := hg
  call := hl'
  others := fun m hclear hm hb => ⟨hm, hbetween m hclear hm hb⟩
  unbinding := by
    intro id howes
    rw [hunbinds]
    exact .inr ⟨howes, nofun⟩
  unlisting := by
    intro q howes
    by_cases hq : l.unlists = some q
    · exact .inl ((hunlists q hq).resolve_right fun hne => hne howes.2)
    · exact .inr ⟨howes, hq⟩
  listed := fun _ _ => .inl
  working := fun id hid => .inl (hworking id hid)
  log := fun _ he => he

theorem Kept.follow (hl' : Local g l') (hfollows : Follows l l') (hunbinds : l.unbinds = none)
    (hunlists : l.unlists = none) (hworking : l'.worksOn = none) : Kept g l clear g l' := by
  apply Kept.pass hg hl' (fun _ _ _ hb => hfollows.between hb) hunbinds
  · rw [hunlists]
    exact nofun
  · rw [hworking]
    exact nofun

theorem Kept.note {e : Entry} (hopened : ∀ c, e ≠ .opened c)
    (hbound : ∀ c n key frame, e ≠ .bound c n key frame)
    (huse : ∀ n c, e = .handed n c ∨ e = .sent n c → g.Bound c n) (hl' : Local (g.note e) l')
    (hfollows : Follows l l') (hunbinds : l.unbinds = none) (hunlists : l.unlists = none)
    (hworking : l'.worksOn = none) : Kept g l clear (g.note e) l' := by
  have hg' := hg.noted (fun c heq => absurd heq (hopened c)) hbound huse
  refine ⟨hg', hl', ?_, ?_, ?_, fun _ _ => .inl, ?_, fun _ he => mem_note.2 (.inl he)⟩
  · intro m _ hm hb
    refine ⟨hm.mono hg hg' (Spares.noted (fun c _ => hopened c) fun c n key frame _ =>
      hbound c n key frame), hfollows.between hb⟩
  · intro id howes
    rw [hunbinds]
    exact .inr ⟨howes, nofun⟩
  · intro q howes
    rw [hunlists]
    exact .inr ⟨howes, nofun⟩
  · rw [hworking]
    exact nofun

theorem announce_kept (hl : Local g (.announcing id)) :
    Kept g (.announcing id) clear ((g.bind id (some ⟨none, false, 0⟩)).note (.opened id))
      (.reading id) := by
  obtain ⟨hle, hnew, hconn⟩ := hl
  have hnoted : Shared (g.note (.opened id)) := by
    refine hg.noted ?_ (fun _ _ _ _ => nofun) (fun _ _ heq => heq.elim nofun nofun)
    intro c heq
    cases heq
    exact hle
  have hunbound (n : Nat) : ¬(g.note (.opened id)).Bound id n := by
    rintro ⟨key, frame, hmem⟩
    refine hnew (hg.opened_of_bound id n ⟨key, frame, ?_⟩)
    exact (mem_note.1 hmem).resolve_right nofun
  have hopened : .opened id ∈ (g.note (.opened id)).log := mem_note.2 (.inr rfl)
  have hg' : Shared ((g.note (.opened id)).bind id (some ⟨none, false, 0⟩)) := by
    refine hnoted.bind_some hopened (fun n => ?_) (fun _ => rfl)
    exact ⟨nofun, fun hb => absurd hb (hunbound n)⟩
  refine ⟨hg', hopened, ?_, ?_, ?_, fun _ _ => .inl, nofun, fun _ he => mem_note.2 (.inl he)⟩
  · intro m _ hm hb
    have hother : m.reads ≠ some id := hb.readers id rfl
    refine ⟨hm.mono hg hg' (Spares.trans hnoted hg' (Spares.noted ?_ fun _ _ _ _ _ => nofun)
      (Spares.bound fun heq => absurd heq hother)), (follows_reading rfl).between hb⟩
    intro c hc heq
    cases heq
    exact hother hc
  · rintro c ⟨hbinding, hgone⟩
    by_cases hc : c = id
    · exact absurd (hc ▸ hconn) hgone
    · refine .inr ⟨⟨?_, hgone⟩, nofun⟩
      rwa [show ((g.bind id (some ⟨none, false, 0⟩)).note (.opened id)).bindings c =
        g.bindings c from bindings_bind_ne hc] at hbinding
  · rintro ⟨c, n⟩ ⟨hlisted, hnone⟩
    refine .inr ⟨⟨hlisted, ?_⟩, nofun⟩
    by_cases hc : c = id
    · have hb := hg.bound_of_listed n c hlisted
      exact absurd (hc ▸ hg.opened_of_bound c n hb) hnew
    · rwa [show ((g.bind id (some ⟨none, false, 0⟩)).note (.opened id)).bindings (c, n).1 =
        g.bindings c from bindings_bind_ne hc] at hnone

end

variable {b : Binding} {key : Key}

section
variable (hg : Shared g)
include hg

theorem Kept.bind {b' : Binding} (hb : g.bindings id = some b) (hg' : Shared (g.bind id (some b')))
    (hreads : l.reads = some id) (hl' : Local (g.bind id (some b')) l') (hfollows : Follows l l')
    (hunbinds : l.unbinds = none) (hunlists : l.unlists = none) (hworking : l'.worksOn = none) :
    Kept g l clear (g.bind id (some b')) l' := by
  have hsame (c : Nat) : (g.bind id (some b')).bindings c = none ↔ g.bindings c = none := by
    by_cases hc : c = id
    · subst hc
      rw [bindings_bind_self, hb]
      simp
    · rw [bindings_bind_ne hc]
  refine ⟨hg', hl', ?_, ?_, ?_, fun _ _ => .inl, ?_, fun _ he => he⟩
  · intro m _ hm hbetween
    exact ⟨hm.mono hg hg' (Spares.bound fun heq => absurd heq (hbetween.readers id hreads)),
      hfollows.between hbetween⟩
  · rintro c ⟨hbinding, hgone⟩
    rw [hunbinds]
    exact .inr ⟨⟨fun hnone => hbinding ((hsame c).2 hnone), hgone⟩, nofun⟩
  · rintro q ⟨hlisted, hnone⟩
    rw [hunlists]
    exact .inr ⟨⟨hlisted, (hsame q.1).1 hnone⟩, nofun⟩
  · rw [hworking]
    exact nofun

theorem tn_eq_none (hsorting : Sorting g id) (hb : g.bindings id = some b) : b.tn = none := by
  cases htn : b.tn with
  | none => rfl
  | some n => exact absurd ((hg.tn_iff id b n hb).1 htn) (hsorting.unbound n)

theorem bindMain_kept (hl : Sorting g id) : Kept g (.bindingMain id) clear
      (g.bind id ((g.bindings id).map fun b => { b with main := true })) (.reading id) := by
  cases hb : g.bindings id with
  | none =>
    have hsame : g.bind id none = g := by
      unfold Store.bind
      rw [← hb, Function.update_eq_self]
    rw [map_none, hsame]
    exact Kept.follow hg hl.opened (follows_reading rfl) rfl rfl rfl
  | some b =>
    have htn : b.tn = none := tn_eq_none hg hl hb
    refine Kept.bind hg hb ?_ rfl hl.opened (follows_reading rfl) rfl rfl rfl
    exact hg.bind_some hl.opened (fun n => hg.tn_iff id b n hb) fun _ => htn

theorem unmatch_kept (hl : .opened id ∈ g.log) (hb : g.bindings id = some b) :
    Kept g (.unmatching id) clear (g.bind id (some { b with unmatched := b.unmatched + 1 }))
      (afterUnmatched id (b.unmatched + 1)) := by
  have hg' : Shared (g.bind id (some { b with unmatched := b.unmatched + 1 })) :=
    hg.bind_some hl (fun n => hg.tn_iff id b n hb) (hg.tn_of_main id b hb)
  unfold afterUnmatched
  split
  · refine Kept.bind hg hb hg' rfl ⟨hl, ?_⟩ ⟨fun _ h => h, nofun, nofun⟩ rfl rfl rfl
    intro t ht
    rw [mem_singleton] at ht
    exact ht ▸ hl
  · exact Kept.bind hg hb hg' rfl hl (follows_reading rfl) rfl rfl rfl

theorem bind_kept (hl : Local g (.binding id n key frame)) (hb : g.bindings id = some b) :
    Kept g (.binding id n key frame) clear
      ((g.bind id (some { b with tn := some n })).note (.bound id n key frame))
      (.inserting id n key) := by
  obtain ⟨hsorting, hopens, hkey⟩ := hl
  -- The binding is taken away, the event noted, and the binding put back as it then is.
  have hdrop : Shared (g.bind id none) := hg.bind_none
  set bare := (g.bind id none).note (.bound id n key frame)
  have hnoted : Shared bare := by
    refine hdrop.noted_bound hsorting.opened hsorting.unbound bindings_bind_self hopens ?_
    obtain ⟨node, hnode, -⟩ := map_eq_some_iff.1 hkey
    have htenant : g.tenant n = some node.tenant := by
      rw [Store.tenant, hnode]
      rfl
    exact ⟨node.tenant, htenant, hg.keyed_of_key n node.tenant key htenant hkey⟩
  have hstore : bare.bind id (some { b with tn := some n }) =
      (g.bind id (some { b with tn := some n })).note (.bound id n key frame) := by
    simp [bare, Store.bind, Store.note]
  have hlog : .bound id n key frame ∈ bare.log := mem_note.2 (.inr rfl)
  have hmain : b.main = false := by
    have hnot := hsorting.notMain
    rwa [Store.isMainBound, hb] at hnot
  have hg' : Shared (bare.bind id (some { b with tn := some n })) := by
    refine hnoted.bind_some (mem_note.2 (.inl hsorting.opened)) (fun m => ?_) ?_
    · constructor
      · intro heq
        cases heq
        exact ⟨key, frame, hlog⟩
      · rintro ⟨key', frame', hmem⟩
        obtain ⟨rfl, -⟩ := hnoted.bound_unique id n key frame m key' frame' hlog hmem
        rfl
    · intro htrue
      rw [hmain] at htrue
      cases htrue
  rw [← hstore]
  have hsame (c : Nat) : (bare.bind id (some { b with tn := some n })).bindings c = none ↔
      g.bindings c = none := by
    by_cases hc : c = id
    · subst hc
      rw [bindings_bind_self, hb]
      simp
    · rw [bindings_bind_ne hc, show bare.bindings c = g.bindings c from bindings_bind_ne hc]
  refine ⟨hg', ⟨mem_note.2 (.inl hsorting.opened), hkey, frame, hlog⟩, ?_, ?_, ?_,
    fun _ _ => .inl, by intros; contradiction, fun _ he => mem_note.2 (.inl he)⟩
  · intro m _ hm hbetween
    have hother : m.reads ≠ some id := hbetween.readers id rfl
    have hspares : Spares (g.bind id none) bare m := by
      refine Spares.noted (by simp) fun c _ _ _ hc heq => ?_
      cases heq
      exact hother hc
    refine ⟨hm.mono hg hg' ?_, ?_⟩
    · exact Spares.trans hnoted hg' (Spares.trans hdrop hnoted (Spares.bound fun _ => rfl) hspares)
        (Spares.bound fun heq => absurd heq hother)
    · exact ⟨hbetween.readers, by intros; contradiction, hbetween.right⟩
  · rintro c ⟨hbinding, hgone⟩
    exact .inr ⟨⟨fun hnone => hbinding ((hsame c).2 hnone), hgone⟩, by rintro ⟨⟩⟩
  · rintro q ⟨hlisted, hnone⟩
    exact .inr ⟨⟨hlisted, (hsame q.1).1 hnone⟩, by rintro ⟨⟩⟩

/-- Nobody counts on it that a connection does not enter the list: the key is the node's, and
the node is not being released. -/
theorem not_revoked_of_inserting {m : Call} (hl : Local g (.inserting id n key)) (hm : Local g m)
    (hr : m.revokes = some r) (hbetween : Between (.inserting id n key) m) : ¬g.Revoked r n id := by
  intro hrevoked
  obtain ⟨-, hkey, frame, hbound⟩ := hl
  have hlasting := lasting_of_revokes hr hm
  cases r with
  | served => exact hrevoked
  | changed k new =>
    obtain ⟨rfl, old, frame', hold, hlt⟩ := hrevoked
    obtain ⟨now, hnow, hle⟩ := hlasting
    obtain ⟨-, rfl⟩ := hg.bound_unique id k key frame k old frame' hbound hold
    rw [hkey, some.injEq] at hnow
    subst hnow
    omega
  | released k =>
    have heq : k = n := hrevoked
    subst heq
    exact hbetween.right k hr rfl

theorem insert_kept (hl : Local g (.inserting id n key)) :
    Kept g (.inserting id n key) clear (g.list n (insert id)) (.confirming id n) := by
  obtain ⟨hopened, hkey, frame, hbound⟩ := hl
  have hg' : Shared (g.list n (insert id)) := by
    refine hg.listed _ fun m c hc => ?_
    rcases mem_ifaces_insert hc with hbefore | ⟨rfl, rfl⟩
    · exact .inl hbefore
    · exact .inr ⟨key, frame, hbound⟩
  refine ⟨hg', ⟨hopened, key, frame, hbound⟩, ?_, ?_, ?_, ?_, ?_, fun _ he => he⟩
  · intro m _ hm hbetween
    refine ⟨hm.mono hg hg' (Spares.of_same_log rfl (Nat.le_refl _) (fun _ _ hc => hc)
      (fun _ => key_list) ?_ (fun _ _ hmain => hmain) ?_),
      ⟨hbetween.readers, nofun, fun _ _ => nofun⟩⟩
    · intro k hdead
      refine ⟨?_, hdead.2⟩
      rw [show (g.list n (insert id)).nodes.length = g.nodes.length from length_modify ..]
      exact hdead.1
    · intro r k c hr hrevoked hlisted hconn
      refine ⟨?_, hconn⟩
      obtain hbefore | ⟨rfl, rfl⟩ := mem_ifaces_insert hlisted
      · exact hbefore
      · have hnot : ¬g.Revoked r k c :=
          not_revoked_of_inserting hg ⟨hopened, hkey, frame, hbound⟩ hm hr hbetween
        exact absurd hrevoked hnot
  · rintro c ⟨hbinding, hgone⟩
    exact .inr ⟨⟨hbinding, hgone⟩, nofun⟩
  · rintro ⟨c, k⟩ ⟨hlisted, hnone⟩
    obtain hbefore | ⟨heq, hc⟩ := mem_ifaces_insert hlisted
    · exact .inr ⟨⟨hbefore, hnone⟩, nofun⟩
    · have hk : k = n := heq
      have hcid : c = id := hc
      subst hk
      subst hcid
      exact .inl rfl
  · intro k c hc
    obtain hbefore | ⟨rfl, rfl⟩ := mem_ifaces_insert hc
    · exact .inl hbefore
    · exact .inr ⟨key, rfl⟩
  · intro c hc
    cases hc
    exact .inr (.inr ⟨n, key, rfl⟩)

end

theorem spares_filter (m : Call) : Spares g (g.list n (·.filter (· ≠ id))) m := by
  refine Spares.of_same_log rfl (Nat.le_refl _) (fun _ _ hc => hc) (fun _ => key_list) ?_
    (fun _ _ hmain => hmain) fun _ _ _ _ _ hlisted hconn => ⟨(mem_ifaces_filter hlisted).1, hconn⟩
  intro k hdead
  refine ⟨?_, hdead.2⟩
  rw [show (g.list n (·.filter (· ≠ id))).nodes.length = g.nodes.length from length_modify ..]
  exact hdead.1

section
variable (hg : Shared g) {allowed : Bool} {cfg : Config}
include hg

theorem shared_filter : Shared (g.list n (·.filter (· ≠ id))) :=
  hg.listed _ fun _ _ hc => .inl (mem_ifaces_filter hc).1

theorem unlist_kept (hl' : Local (g.list n (·.filter (· ≠ id))) l')
    (hunlists : l.unlists = some (id, n)) (hunbinds : l.unbinds = none) (hfollows : Follows l l')
    (hworking : l'.worksOn = none) : Kept g l clear (g.list n (·.filter (· ≠ id))) l' := by
  refine ⟨shared_filter hg, hl', ?_, ?_, ?_, ?_, ?_, fun _ he => he⟩
  · intro m _ hm hb
    exact ⟨hm.mono hg (shared_filter hg) (spares_filter m), hfollows.between hb⟩
  · rintro c ⟨hbinding, hgone⟩
    rw [hunbinds]
    exact .inr ⟨⟨hbinding, hgone⟩, nofun⟩
  · rintro ⟨c, k⟩ ⟨hlisted, hnone⟩
    obtain ⟨hbefore, hne⟩ := mem_ifaces_filter hlisted
    refine .inr ⟨⟨hbefore, hnone⟩, fun heq => ?_⟩
    rw [hunlists] at heq
    cases heq
    exact hne rfl rfl
  · exact fun k c hc => .inl (mem_ifaces_filter hc).1
  · rw [hworking]
    exact nofun

theorem remove_kept (hl : Local g (.removing id rest after)) (hconn : id ∈ g.conns) :
    Kept g (.removing id rest after) clear (g.remove id) (.unbinding id rest after) := by
  have hopened : .opened id ∈ g.log := by
    cases after with
    | reading c => exact hl.2 id mem_cons_self
    | returned r => exact hl.1 id mem_cons_self
  refine ⟨{ hg with }, ?_, ?_, ?_, ?_, fun _ _ => .inl, ?_, fun _ he => he⟩
  · cases after with
    | reading c => exact ⟨hl.1, fun t ht => hl.2 t (mem_cons_of_mem _ ht)⟩
    | returned r =>
      refine ⟨fun t ht => hl.1 t (mem_cons_of_mem _ ht), ?_, ?_⟩
      · cases r with
        | served => trivial
        | changed k key | released k => exact hl.2.1
      · intro k c hrevoked hlisted hc
        obtain ⟨hbefore, hne⟩ := mem_remove.1 hc
        have hrevoked' : g.Revoked r k c := by
          cases r <;> exact hrevoked
        have htargets := hl.2.2 k c hrevoked' hlisted hbefore
        rw [mem_cons] at htargets
        exact htargets.resolve_left hne
  · intro m _ hm hb
    refine ⟨hm.mono hg { hg with } (Spares.of_same_log rfl (Nat.le_refl _) ?_ (fun _ => rfl)
      (fun _ hdead => hdead) (fun _ _ hmain => hmain) ?_), ⟨hb.readers, hb.left, fun _ _ => nofun⟩⟩
    · rintro c rfl hc
      refine mem_remove.2 ⟨hc, ?_⟩
      rintro rfl
      exact hm.2.1 hopened
    · exact fun _ _ _ _ _ hlisted hc => ⟨hlisted, (mem_remove.1 hc).1⟩
  · rintro c ⟨hbinding, hgone⟩
    by_cases hc : c = id
    · exact .inl (hc ▸ rfl)
    · exact .inr ⟨⟨hbinding, fun hmem => hgone (mem_remove.2 ⟨hmem, hc⟩)⟩, nofun⟩
  · exact fun q howes => .inr ⟨howes, nofun⟩
  · intro c hc
    cases hc
    exact .inr (.inl hconn)

theorem unbind_kept (hl : Local g (.unbinding id rest after)) :
    Kept g (.unbinding id rest after) clear (g.bind id none) (unbind g id rest after) := by
  have hg' : Shared (g.bind id none) := hg.bind_none
  have hspares (m : Call) : Spares g (g.bind id none) m := Spares.bound fun _ => rfl
  have hclosing : Closing (g.bind id none) rest after := by
    refine Closing.mono (m := .unbinding id rest after) hg hg' (hspares _) ?_ hl
    rintro r rfl
    rfl
  have hunlisting : (∃ b n, g.bindings id = some b ∧ b.tn = some n ∧
        unbind g id rest after = .unlisting id n rest after) ∨
      (∀ b, g.bindings id = some b → b.tn = none) ∧
        unbind g id rest after = closePublic rest after := by
    unfold unbind
    cases hb : g.bindings id with
    | none => exact .inr ⟨nofun, rfl⟩
    | some b =>
      cases htn : b.tn with
      | none =>
        refine .inr ⟨?_, by simp [htn]⟩
        intro b' heq
        cases heq
        exact htn
      | some n => exact .inl ⟨b, n, rfl, htn, by simp [htn]⟩
  have hunbinding (c : Nat) (howes : OwesUnbinding (g.bind id none) c) :
      OwesUnbinding g c ∧ (Call.unbinding id rest after).unbinds ≠ some c := by
    obtain ⟨hbinding, hgone⟩ := howes
    have hc : c ≠ id := by
      rintro rfl
      exact hbinding bindings_bind_self
    rw [bindings_bind_ne hc] at hbinding
    refine ⟨⟨hbinding, hgone⟩, fun heq => hc ?_⟩
    cases heq
    rfl
  obtain ⟨b, n, hb, htn, heq⟩ | ⟨hnone, heq⟩ := hunlisting
  · rw [heq]
    refine ⟨hg', hclosing, ?_, fun c howes => .inr (hunbinding c howes), ?_, fun _ _ => .inl, ?_,
      fun _ he => he⟩
    · intro m _ hm hbetween
      exact ⟨hm.mono hg hg' (hspares m), ⟨hbetween.readers, hbetween.left, fun _ _ => nofun⟩⟩
    · rintro ⟨c, k⟩ ⟨hlisted, hgone⟩
      by_cases hc : c = id
      · subst hc
        have hk : b.tn = some k := (hg.tn_iff c b k hb).2 (hg.bound_of_listed k c hlisted)
        rw [htn, some.injEq] at hk
        exact .inl (hk ▸ rfl)
      · rw [show (g.bind id none).bindings (c, k).1 = g.bindings c from
          bindings_bind_ne hc] at hgone
        exact .inr ⟨⟨hlisted, hgone⟩, nofun⟩
    · intro c hc
      cases hc
      exact .inl rfl
  · rw [heq]
    refine ⟨hg', local_closePublic hclosing, ?_, fun c howes => .inr (hunbinding c howes), ?_,
      fun _ _ => .inl, ?_, fun _ he => he⟩
    · intro m _ hm hbetween
      exact ⟨hm.mono hg hg' (hspares m), (follows_closePublic rfl rfl).between hbetween⟩
    · rintro ⟨c, k⟩ ⟨hlisted, hgone⟩
      refine .inr ⟨⟨hlisted, ?_⟩, nofun⟩
      by_cases hc : c = id
      · subst hc
        cases hb : g.bindings c with
        | none => rfl
        | some b =>
          have hk := (hg.tn_iff c b k hb).2 (hg.bound_of_listed k c hlisted)
          rw [hnone b hb] at hk
          cases hk
      · rwa [show (g.bind id none).bindings (c, k).1 = g.bindings c from bindings_bind_ne hc]
          at hgone
    · rw [worksOn_closePublic]
      exact nofun

theorem receive_kept (hl : .opened id ∈ g.log) :
    Kept g (.receiving id frame) clear g (onPublicFrame cfg g id frame allowed) := by
  have hreading : Kept g (.receiving id frame) clear g (.reading id) :=
    Kept.follow hg hl (follows_reading rfl) rfl rfl rfl
  fun_cases onPublicFrame cfg g id frame allowed with
  | case1 | case3 => exact hreading
  | case2 b hb n htn =>
    have hbound : g.Bound id n := (hg.tn_iff id b n hb).1 htn
    exact Kept.follow hg ⟨hl, hbound⟩ ⟨fun _ h => h, nofun, nofun⟩ rfl rfl rfl
  | case4 b hb htn hmain =>
    have hsorting : Sorting g id := by
      refine ⟨hl, fun n hbound => ?_, ?_⟩
      · rw [← hg.tn_iff id b n hb, htn] at hbound
        cases hbound
      · simpa [Store.isMainBound, hb] using hmain
    have hunmatching : Kept g (.receiving id frame) clear g (.unmatching id) :=
      Kept.follow hg hl ⟨fun _ h => h, nofun, nofun⟩ rfl rfl rfl
    have hbindingMain : Kept g (.receiving id frame) clear g (.bindingMain id) :=
      Kept.follow hg hsorting ⟨fun _ h => h, nofun, nofun⟩ rfl rfl rfl
    have hlisting : Kept g (.receiving id frame) clear g (.listing id frame) :=
      Kept.follow hg hsorting ⟨fun _ h => h, nofun, nofun⟩ rfl rfl rfl
    unfold classify
    split
    · split
      · split
        · split
          · exact hbindingMain
          · exact hlisting
        · exact hreading
      · exact hlisting
    · split
      · exact hunmatching
      · exact hbindingMain

theorem try_kept {c : Nat} {cands : List Nat} (hl : Sorting g id) :
    Kept g (.trying id frame c cands) clear g (tryKey g id frame c cands allowed) := by
  have hnext : Kept g (.trying id frame c cands) clear g (tryNext id frame cands) := by
    apply Kept.follow hg (local_tryNext hl) (follows_tryNext rfl) rfl rfl
    cases cands <;> rfl
  unfold tryKey
  split
  · exact hnext
  case h_2 key hkey =>
    split
    · split
      case isTrue hopens =>
        exact Kept.follow hg ⟨hl, hopens, hkey⟩ ⟨fun _ h => h, nofun, nofun⟩ rfl rfl rfl
      · exact hnext
    · exact Kept.follow hg hl.opened (follows_reading rfl) rfl rfl rfl

theorem check_kept (hl : Local g (.checking id n key frame)) :
    Kept g (.checking id n key frame) clear g
      (if g.live n then .binding id n key frame else .reading id) := by
  split
  case isTrue hlive =>
    refine Kept.pass hg hl (fun m _ hm hb => ⟨hb.readers, nofun, ?_⟩) rfl nofun nofun
    intro k hk hn
    cases hn
    obtain ⟨tenant, hprivate⟩ := exists_private_of_live hlive
    exact (lasting_of_revokes hk hm).2 tenant hprivate
  · exact Kept.follow hg hl.1.opened (follows_reading rfl) rfl rfl rfl

theorem confirm_kept (hl : Local g (.confirming id n)) : Kept g (.confirming id n) clear g
      (if (g.bindings id).isSome then .handing id n else .withdrawing id n) := by
  split
  case isTrue hsome =>
    refine Kept.pass hg hl (fun _ _ _ hb => ⟨hb.readers, nofun, fun _ _ => nofun⟩) rfl ?_ nofun
    rintro q hq
    cases hq
    refine .inr fun hnone => ?_
    rw [hnone] at hsome
    cases hsome
  · exact Kept.pass hg hl (fun _ _ _ hb => ⟨hb.readers, nofun, fun _ _ => nofun⟩) rfl
      (fun _ => .inl) fun _ h => h

theorem skip_kept (hl : Closing g (id :: rest) after) (hconn : id ∉ g.conns)
    (hreads : l.reads = after.reads) (hrevokes : l.revokes = after.revokes)
    (hunbinds : l.unbinds = none) (hunlists : l.unlists = none) :
    Kept g l clear g (closePublic rest after) := by
  refine Kept.follow hg (local_closePublic ?_) (follows_closePublic hreads hrevokes) hunbinds
    hunlists worksOn_closePublic
  cases after with
  | reading c => exact ⟨hl.1, fun t ht => hl.2 t (mem_cons_of_mem _ ht)⟩
  | returned r =>
    refine ⟨fun t ht => hl.1 t (mem_cons_of_mem _ ht), hl.2.1, ?_⟩
    intro k c hrevoked hlisted hc
    have htargets := hl.2.2 k c hrevoked hlisted hc
    rw [mem_cons] at htargets
    exact htargets.resolve_left fun heq => hconn (heq ▸ hc)

theorem release_kept {order : List Nat} (hl : g.Dead n) (hclear : ∀ m, clear m → m.enters ≠ some n)
    (horder : order.isPerm (g.ifaces n)) :
    Kept g (.releasing n) clear g (closePublic order (.returned (.released n))) := by
  have hmem (c : Nat) : c ∈ order ↔ c ∈ g.ifaces n := (isPerm_iff.1 horder).mem_iff
  refine Kept.pass hg (local_closePublic ⟨?_, hl, ?_⟩) ?_ rfl nofun ?_
  · intro c hc
    exact hg.opened_of_bound c n (hg.bound_of_listed n c ((hmem c).1 hc))
  · rintro k c rfl hlisted _
    exact (hmem c).2 hlisted
  · intro m hm _ _
    refine ⟨fun c hc => ?_, fun k hk => ?_, fun k _ hk => ?_⟩
    · rw [reads_closePublic] at hc
      cases hc
    · rw [revokes_closePublic] at hk
      cases hk
      exact hclear m hm
    · rw [enters_closePublic] at hk
      cases hk
  · rw [worksOn_closePublic]
    exact nofun

theorem perform_kept {op : Op} {g' : Store} (hl : Local g l)
    (hdropping : ∀ id, l = .dropping id → id ∉ g.conns)
    (hclear : ∀ m n, clear m → l = .releasing n → m.enters ≠ some n)
    (h : perform cfg g l op = some (g', l')) : Kept g l clear g' l' := by
  revert h
  -- One case for each alternative of `perform`, in its order.
  fun_cases perform cfg g l op with rintro ⟨⟩
  | case1 id => exact announce_kept hg hl
  | case2 id f => exact Kept.follow hg hl ⟨fun _ h => h, nofun, nofun⟩ rfl rfl rfl
  | case3 id =>
    refine Kept.follow hg ⟨?_, trivial, nofun⟩ ⟨nofun, nofun, nofun⟩ rfl rfl rfl
    intro t ht
    rw [mem_singleton] at ht
    exact ht ▸ hl
  | case4 id frame allowed => exact receive_kept hg hl
  | case5 id => exact bindMain_kept hg hl
  | case6 id frame order horder =>
    apply Kept.follow hg (local_tryNext hl) (follows_tryNext rfl) rfl rfl
    cases order <;> rfl
  | case8 id frame c cands allowed => exact try_kept hg hl
  | case9 id n key frame => exact check_kept hg hl
  | case10 id n key frame hb => exact Kept.follow hg hl.1.opened (follows_reading rfl) rfl rfl rfl
  | case11 id n key frame b hb => exact bind_kept hg hl hb
  | case12 id n key => exact insert_kept hg hl
  | case13 id n => exact confirm_kept hg hl
  | case14 id n => exact unlist_kept hg hl.1 rfl rfl (follows_reading rfl) rfl
  | case15 id n =>
    refine Kept.note hg nofun nofun ?_ (mem_note.2 (.inl hl.1)) (follows_reading rfl) rfl rfl rfl
    rintro k c (heq | heq)
    · cases heq
      exact hl.2
    · cases heq
  | case16 id hb => exact Kept.follow hg hl (follows_reading rfl) rfl rfl rfl
  | case17 id b hb => exact unmatch_kept hg hl hb
  | case18 id rest after =>
    split
    · exact Kept.follow hg hl ⟨fun _ h => h, nofun, fun _ h => h⟩ rfl rfl rfl
    · next hconn => exact skip_kept hg hl hconn rfl rfl rfl rfl
  | case19 id rest after hconn => exact remove_kept hg hl hconn
  | case20 id rest after hconn => exact skip_kept hg hl hconn rfl rfl rfl rfl
  | case21 id rest after => exact unbind_kept hg hl
  | case22 id n rest after =>
    refine unlist_kept hg (local_closePublic ?_) rfl rfl (follows_closePublic rfl rfl)
      worksOn_closePublic
    refine Closing.mono (m := .unlisting id n rest after) hg (shared_filter hg)
      (spares_filter _) ?_ hl
    rintro r rfl
    rfl
  | case23 n order horder => exact release_kept hg hl (fun m hm => hclear m n hm rfl) horder
  | case25 w id =>
    split
    · refine Kept.follow hg ?_ ⟨nofun, nofun, nofun⟩ rfl rfl rfl
      cases w with
      | none => trivial
      | some n => exact hl
    · exact Kept.follow hg ⟨trivial, nofun⟩ ⟨nofun, nofun, nofun⟩ rfl rfl rfl
  | case26 w id =>
    cases w with
    | none => exact Kept.follow hg ⟨trivial, nofun⟩ ⟨nofun, nofun, nofun⟩ rfl rfl rfl
    | some n =>
      refine Kept.note hg nofun nofun ?_ ⟨trivial, nofun⟩ ⟨nofun, nofun, nofun⟩ rfl rfl rfl
      rintro k c (heq | heq)
      · cases heq
      · cases heq
        exact hl
  | case27 w id => exact Kept.follow hg trivial ⟨nofun, nofun, nofun⟩ rfl rfl rfl
  | case28 id =>
    rw [remove_of_not_mem (hdropping id rfl)]
    exact Kept.follow hg ⟨trivial, nofun⟩ ⟨nofun, nofun, nofun⟩ rfl rfl rfl

end

end MeshsatHub.Rnsnode
