import MeshsatHub.Foundations.Histories
import MeshsatHub.Hubmsg.Events

/-!
# Publishing the events of an operation, and publishing them again

`publishStatus` lists the events marked unpublished, publishes them one by one, and marks those it
has published at the end; a sender that repeats a submission makes `HandleOut` mark all unpublished.
An event is owed after a replay until it has been published. An operation can fail, and it can take
effect and be reported as failed. A replay that fails is not entered in the log.
-/

namespace MeshsatHub.Hubmsg
open Interleaving Runs Histories List

structure StatusRow where
  event : MsgOpEvent
  /-- Whether `published_at` is set. -/
  published : Bool
  deriving DecidableEq

/-- What has happened, for the account of it. -/
inductive Told where
  /-- The event is on the status topic of its sender. -/
  | published (ev : MsgOpEvent)
  /-- A repeat has asked for the events of the operation, which were these. -/
  | replayed (key : Key) (events : List MsgOpEvent)
  deriving DecidableEq

structure StatusStore where
  ops : List Key
  /-- The rows of `msg_op_events`. -/
  rows : List StatusRow
  log : List Told

variable (g : StatusStore)

def StatusStore.events : List MsgOpEvent := g.rows.map StatusRow.event

def listUnpublishedMsgOpEvents (limit : Nat) : List MsgOpEvent :=
  (((g.rows.filter fun r => !r.published).map StatusRow.event).insertionSort fun e e' =>
    e.time < e'.time ∨ (e.time = e'.time ∧ e.rev ≤ e'.rev)).take limit

/-- Ids are compared byte by byte. -/
local instance lawfulBEqUUID : LawfulBEq UUID := inferInstance

def markMsgOpEventsPublished (eventIDs : List UUID) : StatusStore :=
  { g with
    rows := g.rows.map fun r =>
      if r.event.eventID ∈ eventIDs then { r with published := true } else r }

def replayMsgOpEvents (key : Key) : StatusStore :=
  { g with
    rows := g.rows.map fun r => if r.event.key = key then { r with published := false } else r
    log := g.log ++ [.replayed key (g.events.filter fun e => e.key = key)] }

def StatusStore.publish (ev : MsgOpEvent) : StatusStore :=
  { g with log := g.log ++ [.published ev] }

/-- A pass of `publishStatus` or a repeat in `HandleOut`. -/
inductive Posting where
  /-- The events still to publish, the operations looked up, and the ids published. -/
  | publishing (rest : List MsgOpEvent) (ops : List Key) (done : List UUID)
  | marking (done : List UUID)
  | replaying (key : Key)
  | ended

/-- The next operation of a call. -/
def post (l : Posting) (o : Outcome) : Option (StatusStore × Posting) :=
  match l with
  | .publishing [] _ done => some (g, .marking done)
  | .publishing (e :: rest) ops done =>
    if e.key ∈ ops then
      if o.ok then some (g.publish e, .publishing rest ops (done ++ [e.eventID]))
      else if o.effective then some (g.publish e, .marking done)
      else some (g, .marking done)
    -- `GetMsgOp`; an event whose operation is not found is passed over.
    else if o.ok ∧ e.key ∈ g.ops then some (g, .publishing (e :: rest) (e.key :: ops) done)
    else some (g, .publishing rest ops done)
  | .marking done =>
    if done = [] then some (g, .ended)
    else if o.effective then some (markMsgOpEventsPublished g done, .ended)
    else some (g, .ended)
  | .replaying key =>
    if o.effective then some (replayMsgOpEvents g key, .ended) else some (g, .ended)
  | .ended => none

/-- What can begin: an operation is stored, an event of a stored operation is stored, a pass
lists what is unpublished, or a submission is repeated. -/
inductive Posted where
  | admitted (key : Key)
  | recorded (ev : MsgOpEvent)
  | publishStatus
  | repeated (key : Key)

def beginPosting : Posted → Option (StatusStore × Posting)
  | .admitted key => if key ∈ g.ops then none else some ({ g with ops := g.ops ++ [key] }, .ended)
  | .recorded ev =>
    if ev.key ∈ g.ops ∧ ev.eventID ∉ g.events.map MsgOpEvent.eventID then
      some ({ g with rows := g.rows ++ [⟨ev, false⟩] }, .ended)
    else none
  | .publishStatus => some (g, .publishing (listUnpublishedMsgOpEvents g 200) [] [])
  | .repeated key => if key ∈ g.ops then some (g, .replaying key) else none

/-- The passes and repeats of all replicas on the store. -/
def statusProgram : Program StatusStore Posting Posted Outcome where
  start := beginPosting
  perform := post

def StatusStore.empty : StatusStore := ⟨[], [], []⟩

def Answered : Prop :=
  ∀ before key events after, g.log = before ++ .replayed key events :: after →
    ∀ ev ∈ events, .published ev ∈ after ∨ ⟨ev, false⟩ ∈ g.rows

def Owed (log : List Told) (ev : MsgOpEvent) : Prop :=
  Since (fun d => ∃ key events, d = .replayed key events ∧ ev ∈ events) (· = .published ev) log

variable {ev : MsgOpEvent} {log : List Told}

theorem owed_publish {e : MsgOpEvent} : Owed (log ++ [.published e]) ev ↔ e ≠ ev ∧ Owed log ev := by
  unfold Owed
  rw [since_snoc]
  simp

theorem owed_replay {key : Key} {events : List MsgOpEvent} :
    Owed (log ++ [.replayed key events]) ev ↔ ev ∈ events ∨ Owed log ev := by
  unfold Owed
  rw [since_snoc]
  simp

variable {g : StatusStore} {l l' : Posting} {o : Outcome} {s : System StatusStore Posting}

theorem answered_of_owed (h : ∀ ev, Owed g.log ev → ⟨ev, false⟩ ∈ g.rows) : Answered g := by
  intro before key events after hlog ev hev
  by_cases hpublished : .published ev ∈ after
  · exact .inl hpublished
  · refine .inr (h ev ⟨before, _, after, hlog, ⟨key, events, rfl, hev⟩, ?_⟩)
    rintro d hd rfl
    exact hpublished hd

structure StatusSound (g : StatusStore) : Prop where
  nodup : (g.events.map MsgOpEvent.eventID).Nodup
  owed : ∀ ev, Owed g.log ev → ⟨ev, false⟩ ∈ g.rows

def Posting.listed : Posting → List MsgOpEvent
  | .publishing rest _ _ => rest
  | _ => []

def Posting.unmarked : Posting → List UUID
  | .publishing _ _ done => done
  | .marking done => done
  | _ => []

structure PostingSound (g : StatusStore) (l : Posting) : Prop where
  listed : l.listed ⊆ g.events
  unmarked : ∀ ev, ev.eventID ∈ l.unmarked → ¬Owed g.log ev

theorem postingSound_idle (hlisted : l.listed = []) (hunmarked : l.unmarked = []) :
    PostingSound g l :=
  ⟨by simp [hlisted], by simp [hunmarked]⟩

/-- What holds of the store and all calls. -/
abbrev StatusInv : System StatusStore Posting → Prop :=
  Inv StatusSound PostingSound fun _ _ => True

/-- What an operation of a call can do. -/
inductive Posts (g : StatusStore) (l : Posting) : StatusStore → Posting → Prop
  | goesOn (l' : Posting) (hlisted : l'.listed ⊆ l.listed) (hunmarked : l'.unmarked ⊆ l.unmarked) :
      Posts g l g l'
  | publish (e : MsgOpEvent) (l' : Posting) (he : e ∈ l.listed) (hlisted : l'.listed ⊆ l.listed)
      (hunmarked : ∀ id ∈ l'.unmarked, id = e.eventID ∨ id ∈ l.unmarked) :
      Posts g l (g.publish e) l'
  | mark (done : List UUID) (hl : l = .marking done) :
      Posts g l (markMsgOpEventsPublished g done) .ended
  | replay (key : Key) (hl : l = .replaying key) : Posts g l (replayMsgOpEvents g key) .ended

theorem posts_of_eq {g' : StatusStore} (h : post g l o = some (g', l')) : Posts g l g' l' := by
  have hnil {l : Posting} : Posts g l g .ended := .goesOn _ (nil_subset _) (nil_subset _)
  revert h
  fun_cases post g l o with rintro ⟨⟩
  | case2 e rest ops done =>
    refine .publish e _ (by simp [Posting.listed]) (subset_cons_self _ _) ?_
    intro id hid
    obtain hold | hnew := mem_append.1 hid
    · exact .inr hold
    · exact .inl (mem_singleton.1 hnew)
  | case3 e => exact .publish e _ (by simp [Posting.listed]) (nil_subset _) fun id hid => .inr hid
  | case1 | case4 => exact .goesOn _ (nil_subset _) (List.Subset.refl _)
  | case5 => exact .goesOn _ (List.Subset.refl _) (List.Subset.refl _)
  | case6 => exact .goesOn _ (subset_cons_self _ _) (List.Subset.refl _)
  | case8 done => exact .mark done rfl
  | case10 key => exact .replay key rfl
  | case7 | case9 | case11 => exact hnil

variable {g : StatusStore} {e : MsgOpEvent} {key : Key} {done : List UUID}

@[simp] theorem events_mark : (markMsgOpEventsPublished g done).events = g.events := by
  simp only [StatusStore.events, markMsgOpEventsPublished, map_map]
  refine map_congr_left fun r _ => ?_
  simp only [Function.comp_apply]
  split <;> rfl

@[simp] theorem events_replay : (replayMsgOpEvents g key).events = g.events := by
  simp only [StatusStore.events, replayMsgOpEvents, map_map]
  refine map_congr_left fun r _ => ?_
  simp only [Function.comp_apply]
  split <;> rfl

theorem StatusSound.eq_of_eventID (h : StatusSound g) (he : e ∈ g.events)
    (hev : ev ∈ g.events) (hid : ev.eventID = e.eventID) : e = ev :=
  inj_on_of_nodup_map h.nodup he hev hid.symm

theorem mem_events_of_row {published : Bool} (h : ⟨ev, published⟩ ∈ g.rows) :
    ev ∈ g.events := mem_map.2 ⟨_, h, rfl⟩

theorem publish_sound (h : StatusSound g) : StatusSound (g.publish e) := by
  refine ⟨h.nodup, fun ev howed => ?_⟩
  exact h.owed ev (owed_publish.1 howed).2

theorem mark_sound (h : StatusSound g) (hunmarked : ∀ ev, ev.eventID ∈ done → ¬Owed g.log ev) :
    StatusSound (markMsgOpEventsPublished g done) := by
  refine ⟨by rw [events_mark]; exact h.nodup, fun ev howed => ?_⟩
  have hnot : ev.eventID ∉ done := fun hmem => hunmarked ev hmem howed
  exact mem_map.2 ⟨⟨ev, false⟩, h.owed ev howed, if_neg hnot⟩

theorem replay_sound (h : StatusSound g) : StatusSound (replayMsgOpEvents g key) := by
  refine ⟨by rw [events_replay]; exact h.nodup, fun ev howed => ?_⟩
  by_cases hkey : ev.key = key
  · -- All rows of the operation are marked unpublished.
    have hmem : ev ∈ g.events := by
      obtain hnow | hbefore := owed_replay.1 howed
      · exact (mem_filter.1 hnow).1
      · exact mem_events_of_row (h.owed ev hbefore)
    obtain ⟨r, hr, rfl⟩ := mem_map.1 hmem
    exact mem_map.2 ⟨r, hr, if_pos hkey⟩
  · have hbefore : Owed g.log ev := by
      refine (owed_replay.1 howed).resolve_left fun hnow => hkey ?_
      exact of_decide_eq_true (mem_filter.1 hnow).2
    exact mem_map.2 ⟨⟨ev, false⟩, h.owed ev hbefore, if_neg hkey⟩

variable {l : Posting}

theorem PostingSound.publish (h : PostingSound g l) : PostingSound (g.publish e) l :=
  ⟨h.listed, fun ev hev howed => h.unmarked ev hev (owed_publish.1 howed).2⟩

theorem PostingSound.mark (h : PostingSound g l) :
    PostingSound (markMsgOpEventsPublished g done) l :=
  ⟨by rw [events_mark]; exact h.listed, h.unmarked⟩

theorem PostingSound.replay (h : PostingSound g l)
    (hclear : ∀ ev ∈ g.events, ev.key = key → ev.eventID ∉ l.unmarked) :
    PostingSound (replayMsgOpEvents g key) l := by
  refine ⟨by rw [events_replay]; exact h.listed, fun ev hev howed => ?_⟩
  obtain hnow | hbefore := owed_replay.1 howed
  · obtain ⟨hmem, hkey⟩ := mem_filter.1 hnow
    exact hclear ev hmem (of_decide_eq_true hkey) hev
  · exact h.unmarked ev hev hbefore

/-- At a replay, no pass has an event of the operation published and not marked. -/
def replayClear (s : System StatusStore Posting) : Interleaving.Event Posted Outcome → Bool
  | .start _ => true
  | .act i _ =>
    match s.calls[i]? with
    | some (.replaying key) =>
      s.calls.all fun l => s.shared.events.all fun ev =>
        !(decide (ev.key = key) && l.unmarked.contains ev.eventID)
    | _ => true

theorem not_unmarked_of_clear {i : Nat} (h : replayClear s (.act i o))
    (hi : s.calls[i]? = some (.replaying key)) :
    ∀ l ∈ s.calls, ∀ ev ∈ s.shared.events, ev.key = key → ev.eventID ∉ l.unmarked := by
  intro l hl ev hev hkey
  simp only [replayClear, hi, all_eq_true] at h
  have hnot := h l hl ev hev
  simpa [hkey] using hnot

theorem beginPosting_inv (h : StatusInv s) {b : Posted}
    (hstart : beginPosting s.shared b = some (g, l)) : StatusInv ⟨g, s.calls ++ [l]⟩ := by
  revert hstart
  fun_cases beginPosting s.shared b with rintro ⟨⟩
  | case2 =>
    exact h.begun ⟨h.shared.nodup, h.shared.owed⟩ (postingSound_idle rfl rfl)
      fun m _ hm => ⟨⟨hm.listed, hm.unmarked⟩, trivial⟩
  | case3 ev hnew =>
    have hevents : StatusStore.events { s.shared with rows := s.shared.rows ++ [⟨ev, false⟩] } =
        s.shared.events ++ [ev] := by
      simp [StatusStore.events]
    refine h.begun ⟨?_, ?_⟩ (postingSound_idle rfl rfl) ?_
    · rw [hevents, map_append, map_singleton, ← concat_eq_append]
      exact h.shared.nodup.concat hnew.2
    · exact fun ev' howed => mem_append_left _ (h.shared.owed ev' howed)
    · intro m _ hm
      refine ⟨⟨?_, hm.unmarked⟩, trivial⟩
      rw [hevents]
      exact subset_append_of_subset_left _ hm.listed
  | case5 =>
    refine h.begun h.shared ⟨?_, nofun⟩ fun m _ hm => ⟨hm, trivial⟩
    intro ev hev
    have hsorted := mem_of_mem_take hev
    rw [mem_insertionSort] at hsorted
    obtain ⟨r, hr, rfl⟩ := mem_map.1 hsorted
    exact mem_map.2 ⟨r, (mem_filter.1 hr).1, rfl⟩
  | case6 => exact h.begun h.shared (postingSound_idle rfl rfl) fun m _ hm => ⟨hm, trivial⟩

theorem post_inv (h : StatusInv s) {i : Nat}
    (hclear : replayClear s (.act i o)) (hi : s.calls[i]? = some l)
    (hposts : Posts s.shared l g l') : StatusInv ⟨g, s.calls.set i l'⟩ := by
  have hlocal := h.call hi
  cases hposts with
  | goesOn l' hlisted hunmarked =>
    exact h.acted hi h.shared
      ⟨List.Subset.trans hlisted hlocal.listed, fun ev hev => hlocal.unmarked ev (hunmarked hev)⟩
      fun m _ hm _ => ⟨hm, trivial⟩
  | publish e l' he hlisted hunmarked =>
    refine h.acted hi (publish_sound h.shared)
      ⟨List.Subset.trans hlisted hlocal.listed, fun ev hev howed => ?_⟩
      fun m _ hm _ => ⟨hm.publish, trivial⟩
    obtain ⟨hne, hbefore⟩ := owed_publish.1 howed
    obtain hid | hold := hunmarked _ hev
    · have hstored := mem_events_of_row (h.shared.owed ev hbefore)
      exact hne (h.shared.eq_of_eventID (hlocal.listed he) hstored hid)
    · exact hlocal.unmarked ev hold hbefore
  | mark done hl =>
    subst hl
    exact h.acted hi (mark_sound h.shared hlocal.unmarked) (postingSound_idle rfl rfl)
      fun m _ hm _ => ⟨hm.mark, trivial⟩
  | replay key hl =>
    subst hl
    exact h.acted hi (replay_sound h.shared) (postingSound_idle rfl rfl)
      fun m hm hsound _ => ⟨hsound.replay (not_unmarked_of_clear hclear hi m hm), trivial⟩

/-- In every run in which no replay comes between the publication of an event of the operation
and its mark, every repeat is answered. -/
theorem repeats_answered {s : System StatusStore Posting}
    (hs : Reaches (step statusProgram) (fun s e => replayClear s e = true)
      ⟨StatusStore.empty, []⟩ s) : Answered s.shared := by
  have hinv : StatusInv s := by
    apply hs.invariant
    · exact Inv.nil ⟨nodup_nil, fun ev howed => absurd howed not_since_nil⟩
    · intro t t' e h hclear hstep
      obtain ⟨b, g, l, hstart⟩ | ⟨i, o, l, g, l', hi, hact⟩ := step_cases hstep
      · exact beginPosting_inv h hstart
      · exact post_inv h hclear hi (posts_of_eq hact)
  exact answered_of_owed hinv.shared.owed

def repeatedKey : Key := ⟨"t", "bridge:a", "op"⟩

def repeatedEvent : MsgOpEvent :=
  ⟨repeatedKey, Vector.replicate 16 0, 1, .forwarded, .hubForwarded, "", .hub, scopeHub, "", 7⟩

/-- A pass publishes and marks the event, a repeat comes, and a second pass publishes again. -/
theorem repeats_answered_second_pass :
    ∃ s, Reaches (step statusProgram) (fun s e => replayClear s e = true)
        ⟨StatusStore.empty, []⟩ s ∧
      s.shared.log = [.published repeatedEvent, .replayed repeatedKey [repeatedEvent],
        .published repeatedEvent] ∧ Answered s.shared := by
  exact exists_reaches_and_of_decide
    [.start (.admitted repeatedKey), .start (.recorded repeatedEvent), .start .publishStatus,
      .act 2 .done, .act 2 .done, .act 2 .done, .act 2 .done, .start (.repeated repeatedKey),
      .act 3 .done, .start .publishStatus, .act 4 .done, .act 4 .done]
    (by decide +kernel) fun _ hs => repeats_answered hs

/-- The pass has published the event when the repeat asks for it again; the mark of the pass
then undoes the replay. -/
theorem mark_undoes_replay :
    ¬∀ s, Reaches (step statusProgram) (fun _ _ => True) ⟨StatusStore.empty, []⟩ s →
      Answered s.shared := by
  refine not_forall_of_decide
    (P := fun s =>
      s.shared.log = [.published repeatedEvent, .replayed repeatedKey [repeatedEvent]] ∧
      s.shared.rows = [⟨repeatedEvent, true⟩])
    [.start (.admitted repeatedKey), .start (.recorded repeatedEvent), .start .publishStatus,
      .act 2 .done, .act 2 .done, .act 2 .done, .start (.repeated repeatedKey), .act 3 .done,
      .act 2 .done] (by decide +kernel) fun s ⟨hlog, hrows⟩ hall => ?_
  have hanswered := hall [.published repeatedEvent] repeatedKey [repeatedEvent] [] hlog
    repeatedEvent (by simp)
  rw [hrows] at hanswered
  revert hanswered
  decide

end MeshsatHub.Hubmsg
