import MeshsatHub.Foundations.Runs
import MeshsatHub.Takhosted.Alarms

/-!
# No emergency is lost

Messages are numbered by their arrival, the intake and the queues keep that order, and the
dispatcher has one event per link in hand; so an event that displaces another one from a queue of
emergencies is a later one.
-/

namespace MeshsatHub.Takhosted
open Queues Runs List Function Strings

section Invariant
variable (f : Forwarder)

/-- A number that has been taken before anything that still waits. -/
def State.isPast (s : State) (n : Nat) : Prop :=
  n < s.arrivals ∧ ∀ m ∈ messages s.intake, n < m.number

def State.isNext (s : State) (key : String) (n : Nat) : Prop :=
  ∀ job ∈ (s.links key).urgent.waiting, ∀ k, job.cargo.number = some k → k < n

structure Inv (s : State) : Prop where
  waits : ∀ m now left, .arrived m now left ∈ s.log → isGuarded f m now left = true →
    .message m ∈ s.intake ∨ ∃ v, .taken m v ∈ s.log
  placed : ∀ m v tenantID cargo, .taken m v ∈ s.log → alarm f m v = some (tenantID, cargo) →
    ∀ up ∈ v.world.upstreams tenantID, ⟨tenantID, ⟨up, cargo⟩, true⟩ ∈ s.dispatching ∨
      .put ⟨up, cargo⟩ ∈ (s.links (upstreamKey tenantID up)).urgent.history
  displaced : ∀ key old new, .displaced old new ∈ (s.links key).urgent.history →
    ∃ m v, .taken m v ∈ s.log ∧ isEmergency f m v.now = true ∧
      new.cargo.number = some m.number ∧ ∀ n, old.cargo.number = some n → n < m.number
  ordered : (messages s.intake).Pairwise fun m m' => m.number < m'.number
  numbered : ∀ m ∈ messages s.intake, m.number < s.arrivals
  queued : ∀ key, ∀ job ∈ (s.links key).urgent.waiting, ∀ n, job.cargo.number = some n → s.isPast n
  pending : ∀ p ∈ s.dispatching, ∀ n, p.job.cargo.number = some n → s.isPast n ∧
    (p.urgent = true → s.isNext p.key n ∧
      ∃ m v, .taken m v ∈ s.log ∧ m.number = n ∧ isEmergency f m v.now = true)
  distinct : s.dispatching.Pairwise fun p p' =>
    p.job.cargo.number.isSome → p'.job.cargo.number.isSome → p.key ≠ p'.key
  relays : ∀ p ∈ s.ticking, p.job.cargo.number = none

end Invariant

variable {f : Forwarder} {s s' : State}

theorem initial_inv (limits : Limiter) (reg : Registrations) : Inv f (initial limits reg) where
  waits := nofun
  placed := nofun
  displaced := nofun
  ordered := Pairwise.nil
  numbered := nofun
  queued := nofun
  pending := nofun
  distinct := Pairwise.nil
  relays := nofun

section
variable (h : Inv f s)
include h

theorem Inv.of_frame (harrivals : s'.arrivals = s.arrivals)
    (hintake : messages s'.intake = messages s.intake) (hlinks : s'.links = s.links)
    (hdispatching : s'.dispatching = s.dispatching)
    (hticking : ∀ p ∈ s'.ticking, p.job.cargo.number = none) (hlog : s'.log = s.log) :
    Inv f s' := by
  have hpast {n : Nat} (hn : s.isPast n) : s'.isPast n := by
    rwa [State.isPast, harrivals, hintake]
  refine ⟨?_, ?_, ?_, ?_, ?_, ?_, ?_, ?_, hticking⟩
  · intro m now left hm hguarded
    rw [hlog] at hm ⊢
    rw [← mem_messages, hintake, mem_messages]
    exact h.waits m now left hm hguarded
  · rw [hlog, hdispatching, hlinks]
    exact h.placed
  · rw [hlog, hlinks]
    exact h.displaced
  · rw [hintake]
    exact h.ordered
  · rw [hintake, harrivals]
    exact h.numbered
  · rw [hlinks]
    exact fun key job hjob n hn => hpast (h.queued key job hjob n hn)
  · rw [hdispatching, hlog]
    intro p hp n hn
    obtain ⟨hisPast, hurgent⟩ := h.pending p hp n hn
    refine ⟨hpast hisPast, fun hu => ?_⟩
    rw [State.isNext, hlinks]
    exact hurgent hu
  · rw [hdispatching]
    exact h.distinct

variable {now : Int} {w : World} {l l' : Link} {key : String}

theorem receive_inv {topic : String} {payload : Bytes}
    (hclear : clearToReceive f s topic payload now) : Inv f (receive s topic payload now) := by
  obtain ⟨limits, present, intake, heq, hmessages, hguarded⟩ := receive_spec f s topic payload now
  rw [heq]
  -- What waited still waits, and only the new message may have joined it.
  have hkept : ∀ m ∈ messages s.intake, m ∈ messages intake := by
    intro m hm
    obtain hsame | hmore := hmessages
    · rwa [hsame]
    · rw [hmore]
      exact mem_append_left _ hm
  have hnew : ∀ m ∈ messages intake, m ∈ messages s.intake ∨ m.number = s.arrivals := by
    intro m hm
    obtain hsame | hmore := hmessages
    · rw [hsame] at hm
      exact .inl hm
    · rw [hmore, mem_append, mem_singleton] at hm
      exact hm.imp_right fun hm => by rw [hm]
  have hpast {n : Nat} (hn : s.isPast n) :
      n < s.arrivals + 1 ∧ ∀ m ∈ messages intake, n < m.number := by
    refine ⟨Nat.lt_succ_of_lt hn.1, fun m hm => ?_⟩
    obtain hm | hm := hnew m hm
    · exact hn.2 m hm
    · rw [hm]
      exact hn.1
  refine ⟨?_, ?_, ?_, ?_, ?_, ?_, ?_, h.distinct, h.relays⟩
  · intro m now' left hm hg
    rw [mem_append, mem_singleton] at hm
    obtain hm | hm := hm
    · obtain hwaits | ⟨v, hv⟩ := h.waits m now' left hm hg
      · exact .inl (mem_messages.1 (hkept m (mem_messages.2 hwaits)))
      · exact .inr ⟨v, mem_append_left _ hv⟩
    · cases hm
      exact .inl (hguarded hclear hg)
  · exact fun m v tenantID cargo hm => h.placed m v tenantID cargo (by simpa using hm)
  · intro key old new hdisplaced
    obtain ⟨m, v, hm, hrest⟩ := h.displaced key old new hdisplaced
    exact ⟨m, v, mem_append_left _ hm, hrest⟩
  · obtain hsame | hmore := hmessages
    · rw [hsame]
      exact h.ordered
    · rw [hmore, pairwise_append]
      refine ⟨h.ordered, pairwise_singleton _ _, fun m hm m' hm' => ?_⟩
      rw [mem_singleton.1 hm']
      exact h.numbered m hm
  · intro m hm
    obtain hm | hm := hnew m hm
    · exact Nat.lt_succ_of_lt (h.numbered m hm)
    · rw [hm]
      exact Nat.lt_succ_self _
  · exact fun key job hjob n hn => hpast (h.queued key job hjob n hn)
  · intro p hp n hn
    obtain ⟨hisPast, hurgent⟩ := h.pending p hp n hn
    refine ⟨hpast hisPast, fun hu => ?_⟩
    obtain ⟨hnext, m, v, hm, hrest⟩ := hurgent hu
    exact ⟨hnext, m, v, mem_append_left _ hm, hrest⟩

theorem dispatch_inv {asked : Int} (hclear : clearToDispatch f s asked now)
    (hstep : dispatch f s w asked now = some s') : Inv f s' := by
  obtain ⟨hidle, ⟨tenantID, rest, hintake, hframe, hnothing⟩ |
    ⟨m, rest, hintake, hframe, hof, halarm⟩⟩ := dispatch_spec hstep
  · have hmessages : messages s'.intake = messages s.intake := by
      rw [hframe.intake, hintake]
      rfl
    exact h.of_frame hframe.arrivals hmessages hframe.links (hnothing.trans hidle.symm)
      (hframe.ticking ▸ h.relays) hframe.log
  · have hmessages : messages s.intake = m :: messages s'.intake := by
      rw [hframe.intake, hintake]
      rfl
    have hrest : ∀ m' ∈ messages s'.intake, m' ∈ messages s.intake := by
      rw [hmessages]
      exact fun m' => mem_cons_of_mem m
    have hmem : m ∈ messages s.intake := by
      rw [hmessages]
      exact mem_cons_self
    have hordered := h.ordered
    rw [hmessages, pairwise_cons] at hordered
    have hpast {n : Nat} (hn : s.isPast n) : s'.isPast n := by
      rw [State.isPast, hframe.arrivals]
      exact ⟨hn.1, fun m' hm' => hn.2 m' (hrest m' hm')⟩
    have hlog : s'.log = s.log ++ [.taken m ⟨w, asked, now, freshAt f s now m⟩] := hframe.log
    have hlinks : s'.links = s.links := hframe.links
    refine ⟨?_, ?_, ?_, hordered.2, ?_, ?_, ?_, hof.distinct, hframe.ticking ▸ h.relays⟩
    · intro m' now' left hm' hguarded
      rw [hlog] at hm' ⊢
      obtain hm' | hm' := mem_append.1 hm'
      · obtain hwaits | ⟨v, hv⟩ := h.waits m' now' left hm' hguarded
        · rw [← mem_messages, hmessages, mem_cons] at hwaits
          obtain rfl | hwaits := hwaits
          · exact .inr ⟨_, mem_append_right _ (mem_singleton_self _)⟩
          · exact .inl (mem_messages.1 hwaits)
        · exact .inr ⟨v, mem_append_left _ hv⟩
      · cases mem_singleton.1 hm'
    · intro m' v tenantID cargo hm' hcargo up hup
      rw [hlog] at hm'
      rw [hlinks]
      obtain hm' | hm' := mem_append.1 hm'
      · obtain hpending | hput := h.placed m' v tenantID cargo hm' hcargo up hup
        · rw [hidle] at hpending
          cases hpending
        · exact .inr hput
      · cases mem_singleton.1 hm'
        exact .inl (halarm hclear tenantID cargo hcargo up hup)
    · intro key old new hdisplaced
      rw [hlinks] at hdisplaced
      obtain ⟨m', v, hm', hlater⟩ := h.displaced key old new hdisplaced
      rw [hlog]
      exact ⟨m', v, mem_append_left _ hm', hlater⟩
    · intro m' hm'
      rw [hframe.arrivals]
      exact h.numbered m' (hrest m' hm')
    · rw [hlinks]
      exact fun key job hjob n hn => hpast (h.queued key job hjob n hn)
    · intro p hp n hn
      obtain ⟨rfl, hurgent⟩ := hof.number p hp n hn
      refine ⟨⟨?_, hordered.1⟩, fun hu =>
        ⟨?_, m, ⟨w, asked, now, freshAt f s now m⟩, ?_, rfl, hurgent hu⟩⟩
      · rw [hframe.arrivals]
        exact h.numbered m hmem
      · rw [State.isNext, hlinks]
        exact fun job hjob k hk => (h.queued p.key job hjob k hk).2 m hmem
      · rw [hlog]
        exact mem_append_right _ (mem_singleton_self _)

omit h in
theorem enqueue_urgent (s : State) (p : Placement) (key : String) : ((p.urgent ∧ key = p.key) ∧
        ((s.enqueue p).links key).urgent = (s.links key).urgent.offer linkUrgentQueue p.job) ∨
      ¬(p.urgent ∧ key = p.key) ∧
        ((s.enqueue p).links key).urgent = (s.links key).urgent := by
  unfold State.enqueue
  dsimp only
  by_cases hkey : key = p.key
  · subst hkey
    rw [update_self]
    split
    case isTrue hurgent => exact .inl ⟨⟨hurgent, rfl⟩, rfl⟩
    case isFalse hroutine => exact .inr ⟨fun h => hroutine h.1, rfl⟩
  · rw [update_of_ne hkey]
    exact .inr ⟨fun h => hkey h.2, rfl⟩

omit h in
theorem enqueue_spec (s : State) (p : Placement) (key : String) :
    (∀ job ∈ ((s.enqueue p).links key).urgent.waiting,
        job ∈ (s.links key).urgent.waiting ∨ job = p.job ∧ key = p.key) ∧
      (∀ move ∈ (s.links key).urgent.history, move ∈ ((s.enqueue p).links key).urgent.history) ∧
      (p.urgent → key = p.key →
        .put p.job ∈ ((s.enqueue p).links key).urgent.history) ∧
      ∀ old new, .displaced old new ∈ ((s.enqueue p).links key).urgent.history →
        .displaced old new ∈ (s.links key).urgent.history ∨
          (p.urgent ∧ key = p.key) ∧ new = p.job ∧ old ∈ (s.links key).urgent.waiting ∧
            ¬(s.links key).urgent.waiting.length < linkUrgentQueue := by
  obtain ⟨hhere, hoffer⟩ | ⟨helsewhere, hsame⟩ := enqueue_urgent s p key
  · rw [hoffer]
    rcases offer_spec (q := (s.links key).urgent) (j := p.job)
      (by decide : 0 < linkUrgentQueue) with
      ⟨-, hwaiting, hhistory⟩ | ⟨oldest, rest, hfull, hfront, hwaiting, hhistory⟩
    · rw [hwaiting, hhistory]
      refine ⟨?_, fun _ => mem_append_left _, fun _ _ => by simp, ?_⟩
      · intro job hjob
        obtain hjob | hjob := mem_append.1 hjob
        · exact .inl hjob
        · exact .inr ⟨mem_singleton.1 hjob, hhere.2⟩
      · intro old new hmove
        obtain hmove | hmove := mem_append.1 hmove
        · exact .inl hmove
        · cases mem_singleton.1 hmove
    · rw [hwaiting, hhistory]
      refine ⟨?_, fun _ => mem_append_left _, fun _ _ => by simp, ?_⟩
      · intro job hjob
        obtain hjob | hjob := mem_append.1 hjob
        · rw [hfront]
          exact .inl (mem_cons_of_mem _ hjob)
        · exact .inr ⟨mem_singleton.1 hjob, hhere.2⟩
      · intro old new hmove
        obtain hmove | hmove := mem_append.1 hmove
        · exact .inl hmove
        · simp only [mem_cons, not_mem_nil, or_false, reduceCtorEq] at hmove
          cases hmove
          refine .inr ⟨hhere, rfl, ?_, hfull⟩
          rw [hfront]
          exact mem_cons_self
  · rw [hsame]
    exact ⟨fun _ => .inl, fun _ => id, fun hu hk => absurd ⟨hu, hk⟩ helsewhere, fun _ _ => .inl⟩

theorem enqueue_inv {p : Placement} {rest ticking : List Placement} (hclear : clearToPlace s p)
    (hfrom : s.dispatching = p :: rest ∨ s.dispatching = rest ∧ p.job.cargo.number = none)
    (hticking : ∀ q ∈ ticking, q.job.cargo.number = none) :
    Inv f ({ s with dispatching := rest, ticking := ticking }.enqueue p) := by
  set t : State := { s with dispatching := rest, ticking := ticking } with ht
  have hspec := enqueue_spec t p
  have hrest : ∀ q ∈ rest, q ∈ s.dispatching := by
    intro q hq
    obtain hcons | ⟨hsame, -⟩ := hfrom
    · rw [hcons]
      exact mem_cons_of_mem _ hq
    · rwa [hsame]
  -- The event in hand is the dispatcher's first one, if it has a number.
  have hfirst {n : Nat} (hn : p.job.cargo.number = some n) : s.dispatching = p :: rest := by
    obtain hcons | ⟨-, hnone⟩ := hfrom
    · exact hcons
    · rw [hnone] at hn
      cases hn
  have hmem {n : Nat} (hn : p.job.cargo.number = some n) : p ∈ s.dispatching := by
    rw [hfirst hn]
    exact mem_cons_self
  refine ⟨h.waits, ?_, ?_, h.ordered, h.numbered, ?_, ?_, ?_, hticking⟩
  · intro m v tenantID cargo hm hcargo up hup
    obtain hpending | hput := h.placed m v tenantID cargo hm hcargo up hup
    · by_cases heq : (⟨tenantID, ⟨up, cargo⟩, true⟩ : Placement) = p
      · subst heq
        exact .inr ((hspec _).2.2.1 rfl rfl)
      · refine .inl ?_
        rcases hfrom with hcons | ⟨hsame, -⟩
        · rw [hcons] at hpending
          exact (mem_cons.1 hpending).resolve_left heq
        · rwa [hsame] at hpending
    · exact .inr ((hspec _).2.1 _ hput)
  · intro key old new hdisplaced
    obtain hbefore | ⟨⟨hurgent, rfl⟩, rfl, hold, hfull⟩ := (hspec key).2.2.2 old new hdisplaced
    · exact h.displaced key old new hbefore
    · have hsome : p.job.cargo.number.isSome := by
        rw [clearToPlace, Bool.or_eq_true] at hclear
        refine hclear.resolve_right fun hroom => hfull (by simpa using hroom)
      obtain ⟨n, hn⟩ := Option.isSome_iff_exists.1 hsome
      obtain ⟨hnext, m, v, hm, rfl, hemergency⟩ := (h.pending p (hmem hn) n hn).2 hurgent
      exact ⟨m, v, hm, hemergency, hn, hnext old hold⟩
  · intro key job hjob n hn
    obtain hbefore | ⟨rfl, -⟩ := (hspec key).1 job hjob
    · exact h.queued key job hbefore n hn
    · exact (h.pending p (hmem hn) n hn).1
  · intro q hq n hn
    obtain ⟨hpast, hurgent⟩ := h.pending q (hrest q hq) n hn
    refine ⟨hpast, fun hu => ⟨?_, (hurgent hu).2⟩⟩
    intro job hjob k hk
    obtain hbefore | ⟨rfl, hkey⟩ := (hspec q.key).1 job hjob
    · exact (hurgent hu).1 job hbefore k hk
    · have hdistinct := h.distinct
      rw [hfirst hk, pairwise_cons] at hdistinct
      exact absurd hkey.symm (hdistinct.1 q hq (by rw [hk]; rfl) (by rw [hn]; rfl))
  · have hdistinct := h.distinct
    obtain hcons | ⟨hsame, -⟩ := hfrom
    · rw [hcons] at hdistinct
      exact (pairwise_cons.1 hdistinct).2
    · rwa [hsame] at hdistinct

theorem link_inv (extra : List (Move Job))
    (hwaiting : ∀ job ∈ l.urgent.waiting, job ∈ (s.links key).urgent.waiting)
    (hhistory : l.urgent.history = (s.links key).urgent.history ++ extra)
    (hextra : ∀ move ∈ extra, ∃ job, move = .taken job) :
    Inv f { s with links := update s.links key l } := by
  have hlinks (k : String) : (∀ job ∈ (update s.links key l k).urgent.waiting,
          job ∈ (s.links k).urgent.waiting) ∧
        (∀ move ∈ (s.links k).urgent.history,
          move ∈ (update s.links key l k).urgent.history) ∧
        ∀ old new, .displaced old new ∈ (update s.links key l k).urgent.history →
          .displaced old new ∈ (s.links k).urgent.history := by
    by_cases hk : k = key
    · subst hk
      rw [update_self, hhistory]
      refine ⟨hwaiting, fun _ => mem_append_left _, fun old new hmove => ?_⟩
      obtain hmove | hmove := mem_append.1 hmove
      · exact hmove
      · obtain ⟨job, hjob⟩ := hextra _ hmove
        cases hjob
    · rw [update_of_ne hk]
      exact ⟨fun _ => id, fun _ => id, fun _ _ => id⟩
  refine ⟨h.waits, ?_, ?_, h.ordered, h.numbered, ?_, ?_, h.distinct, h.relays⟩
  · intro m v tenantID cargo hm hcargo up hup
    exact (h.placed m v tenantID cargo hm hcargo up hup).imp_right ((hlinks _).2.1 _)
  · exact fun k old new hmove => h.displaced k old new ((hlinks k).2.2 old new hmove)
  · exact fun k job hjob => h.queued k job ((hlinks k).1 job hjob)
  · intro p hp n hn
    obtain ⟨hpast, hurgent⟩ := h.pending p hp n hn
    refine ⟨hpast, fun hu => ⟨?_, (hurgent hu).2⟩⟩
    exact fun job hjob => (hurgent hu).1 job ((hlinks p.key).1 job hjob)

theorem taken_inv
    (hurgent : l.urgent = (s.links key).urgent ∨ (s.links key).urgent.take = some l.urgent) :
    Inv f { s with links := update s.links key l } := by
  obtain hsame | htake := hurgent
  · refine link_inv h [] ?_ ?_ nofun
    · rw [hsame]
      exact fun _ => id
    · rw [hsame, append_nil]
  · obtain ⟨old, hwaiting, hhistory⟩ := take_spec htake
    refine link_inv h [.taken old] ?_ hhistory fun move hmove => ⟨old, mem_singleton.1 hmove⟩
    rw [hwaiting]
    exact fun job => mem_cons_of_mem old

omit h in
theorem look_spec (h : l.look = some l') :
    l'.urgent = l.urgent ∨ l.urgent.take = some l'.urgent := by
  unfold Link.look at h
  split at h
  · cases h
  · split at h
    case h_1 urgent htake =>
      cases h
      exact .inr htake
    case h_2 =>
      cases h
      exact .inl rfl

omit h in
theorem pick_spec {pick : Pick} (h : l.pick pick = some l') :
    l'.urgent = l.urgent ∨ l.urgent.take = some l'.urgent := by
  revert h
  fun_cases l.pick pick with
  | case1 =>
    intro h
    obtain ⟨q, htake, rfl⟩ := Option.map_eq_some_iff.1 h
    exact .inr htake
  | case3 =>
    intro h
    obtain ⟨q, -, rfl⟩ := Option.map_eq_some_iff.1 h
    exact .inl rfl
  | case5 =>
    rintro ⟨⟩
    exact .inl rfl
  | case2 | case4 | case6 => rintro ⟨⟩

theorem onUpstream_inv (tenantID : String) (up : Upstream) (frame : Bytes)
    (now : Int) : Inv f (onUpstream f s tenantID up frame now) := by
  have hframe : Frame s (onUpstream f s tenantID up frame now) ∧
      (onUpstream f s tenantID up frame now).dispatching = s.dispatching := by
    fun_cases onUpstream f s tenantID up frame now <;> exact ⟨⟨rfl, rfl, rfl, rfl, rfl⟩, rfl⟩
  obtain ⟨hsame, hdispatching⟩ := hframe
  exact h.of_frame hsame.arrivals (by rw [hsame.intake]) hsame.links hdispatching
    (hsame.ticking ▸ h.relays) hsame.log

omit h in
theorem visit_inv (present : List (String × Int)) (h : Inv f s) :
    Inv f (visit f w now present s) := by
  induction present generalizing s with
  | nil => exact h
  | cons tenant rest ih =>
    obtain ⟨tenantID, seen⟩ := tenant
    have hpush := (push_eq s (.connect tenantID)).1
    apply ih
    refine h.of_frame ?_ (push_connect s tenantID) ?_ ?_ ?_ ?_
    · rw [hpush]
    · rw [hpush]
    · rw [hpush]
    · intro p hp
      rw [hpush] at hp
      obtain hp | hp := mem_append.1 hp
      · exact h.relays p hp
      · exact sendRelay_frames _ _ p hp
    · rw [hpush]

theorem tick_inv (hstep : tick f s w now = some s') : Inv f s' := by
  unfold tick at hstep
  split at hstep
  · cases hstep
  · cases hstep
    exact visit_inv _ (h.of_frame rfl rfl rfl rfl h.relays rfl)

theorem step_inv {e : Event} (hclear : clear f s e) (hstep : step f s e = some s') : Inv f s' := by
  revert hclear hstep
  fun_cases step f s e with
  | case1 =>
    rintro hclear ⟨⟩
    exact receive_inv h hclear
  | case2 => exact dispatch_inv h
  | case3 | case5 | case12 => rintro _ ⟨⟩
  | case4 p rest hdispatching =>
    rw [clear, hdispatching]
    rintro hclear ⟨⟩
    exact enqueue_inv h hclear (.inl hdispatching) h.relays
  | case6 p rest hticking =>
    rw [clear, hticking]
    rintro hclear ⟨⟩
    have hrelays := h.relays
    rw [hticking] at hrelays
    exact enqueue_inv h hclear (.inr ⟨rfl, hrelays p mem_cons_self⟩)
      fun q hq => hrelays q (mem_cons_of_mem p hq)
  | case7 key =>
    intro _ hstep
    obtain ⟨l, hlook, rfl⟩ := Option.map_eq_some_iff.1 hstep
    exact taken_inv h (look_spec hlook)
  | case8 key pick =>
    intro _ hstep
    obtain ⟨l, hpick, rfl⟩ := Option.map_eq_some_iff.1 hstep
    exact taken_inv h (pick_spec hpick)
  | case9 tenantID up frame now =>
    rintro _ ⟨⟩
    exact onUpstream_inv h tenantID up frame now
  | case10 w now => exact fun _ hstep => tick_inv h hstep
  | case11 =>
    rintro _ ⟨⟩
    exact taken_inv h (.inl rfl)

theorem Inv.carried : Carried f s where
  waits := h.waits
  placed := h.placed
  leaves := fun _ _ => mem_of_put
  displaced := h.displaced
  takes := fun _ _ => dispatch_total
  places := by
    intro p rest hdispatching
    refine ⟨{ s with dispatching := rest }.enqueue p, ?_, rfl⟩
    simp only [step, hdispatching]

end

/-- In a tenure whose steps are all clear no emergency is lost. -/
theorem emergencies_carried (f : Forwarder) (limits : Limiter) (reg : Registrations) {s : State}
    (h : Reaches (step f) (fun s e => clear f s e = true) (initial limits reg) s) :
    Carried f s := by
  have hinv : Inv f s :=
    h.invariant (initial_inv limits reg) fun _ _ _ hs hclear hstep => step_inv hs hclear hstep
  exact hinv.carried

def sampleXML (type : String) : Bytes :=
  ("<event version=\"2.0\" uid=\"MESHSAT-aabbccdd\" type=\"" ++ type ++
    "\" time=\"2026-01-01T00:00:00Z\" start=\"2026-01-01T00:00:00Z\"" ++
    " stale=\"2026-01-01T00:05:00Z\"><point lat=\"1\" lon=\"2\"/></event>").toUTF8.data.toList

/-- The first moment of 2026. -/
def newYear : Int := 1767225600 * second

def sampleMeta (type : String) (emergency : Bool) : Meta :=
  ⟨"MESHSAT-aabbccdd", type, newYear, newYear + 5 * minute, emergency, "", "", "", "", "", "", []⟩

def samplePosition : Bytes := "\x7b\"lat\":1,\"lon\":2\x7d".toUTF8.data.toList

def marker : Bytes := sampleXML "a-f-G-U-C"

def mayday : Bytes := sampleXML "b-a-o-tbl"

def sampleForwarder : Forwarder where
  chat := false
  position := fun payload =>
    if payload = samplePosition then some ⟨0x3ff0000000000000, 0x4000000000000000, 0, ""⟩ else none
  rewrite := fun raw _ _ =>
    if raw = marker then some (raw, sampleMeta "a-f-G-U-C" false)
    else if raw = mayday then some (raw, sampleMeta "b-a-o-tbl" true)
    else none
  sha256 := fun bytes =>
    if bytes = marker then [112, 7, 165, 14, 115, 79, 103, 50, 55, 135, 4, 245, 114, 134, 133, 17,
      66, 9, 195, 163, 95, 209, 221, 76, 98, 124, 158, 127, 190, 116, 94, 57]
    else [190, 8, 71, 126, 200, 45, 135, 204, 22, 66, 201, 47, 208, 84, 222, 104, 28, 43, 63, 14,
      53, 70, 42, 103, 167, 49, 94, 231, 87, 138, 160, 221]
  toLower := fun s => String.ofList (s.toList.map Char.toLower)

def sampleWorld : World where
  hosted := fun tenantID => if tenantID = "acme" then some ⟨"ots-acme:8089", "hosted"⟩ else none
  external := fun tenantID => if tenantID = "acme" then some ⟨"tak.acme:8089", "external"⟩ else none
  device := fun _ _ => none
  bridge := fun tenantID bridgeID =>
    if tenantID = "acme" ∧ bridgeID = "br-1" then .found else .missing
  contacts := fun _ => some []

def exportTopic : String := "meshsat/acme/bridge/br-1/tak/cot/out"

def positionTopic : String := "meshsat/acme/!aabbccdd/position"

def sosTopic : String := "meshsat/acme/!aabbccdd/sos"

def fresh : State := initial (fun _ => none) (fun _ => none)

/-- A routine position, an emergency and an SOS report come in. The dispatcher takes them
in turn while one of the links writes. -/
def emergencies : List Event :=
  [.receive positionTopic samplePosition newYear, .receive exportTopic mayday newYear,
    .receive sosTopic samplePosition newYear,
    .dispatch sampleWorld newYear newYear, .place, .place,
    .dispatch sampleWorld newYear newYear, .place, .look "acme|ots-acme:8089", .place,
    .dispatch sampleWorld newYear newYear, .place, .place]

/-- How many events were put on a link's queue of emergencies, and how many wait. -/
def State.counts (s : State) (key : String) : Nat × Nat :=
  (((s.links key).urgent.history.filterMap Move.arrival).length,
    (s.links key).urgent.waiting.length)

theorem emergencies_carried_twoServers :
    ∃ s, Reaches (step sampleForwarder) (fun s e => clear sampleForwarder s e = true) fresh s ∧
      (s.counts "acme|ots-acme:8089", s.counts "acme|tak.acme:8089") = ((2, 1), (2, 2)) ∧
      Carried sampleForwarder s := by
  exact exists_reaches_and_of_decide emergencies (by decide +kernel)
    fun _ hs => emergencies_carried _ _ _ hs

def allPlaced (f : Forwarder) (s : State) : Bool :=
  s.log.all fun
    | .arrived _ _ _ => true
    | .taken m v =>
      match alarm f m v with
      | none => true
      | some (tenantID, cargo) => (v.world.upstreams tenantID).all fun up =>
        decide (⟨tenantID, ⟨up, cargo⟩, true⟩ ∈ s.dispatching) ||
          decide (.put ⟨up, cargo⟩ ∈ (s.links (upstreamKey tenantID up)).urgent.history)

theorem allPlaced_of_carried (h : Carried f s) : allPlaced f s := by
  rw [allPlaced, all_eq_true]
  intro e he
  cases e with
  | arrived m now left => rfl
  | taken m v =>
    dsimp only
    split
    · rfl
    case h_2 tenantID cargo halarm =>
      rw [all_eq_true]
      intro up hup
      simpa using h.placed m v tenantID cargo he halarm up hup

def exporterInDistress : List Event :=
  [.receive exportTopic marker newYear, .dispatch sampleWorld newYear newYear, .place, .place,
    .receive sosTopic samplePosition (newYear + 10 * second),
    .dispatch sampleWorld (newYear + 10 * second) (newYear + 10 * second)]

theorem receive_of_device (s : State) (topic : String) (payload : Bytes) (now : Int)
    (hexport : endsWith topic cotOutSuffix = false)
    (hlife : (endsWith topic "/health" || endsWith topic "/birth") = false) :
    receive s topic payload now =
      { s with
        arrivals := s.arrivals + 1
        log := s.log ++
          [Entry.arrived ⟨s.arrivals, topic, payload⟩ now (urgentLeft s.limits topic now)] }.push
        (.message ⟨s.arrivals, topic, payload⟩) := by
  rw [receive, hexport, hlife]
  rfl

theorem flooded (f : Forwarder) (n : Nat) (hn : n ≤ intakeQueue) :
    ∃ s, Reaches (step f) (fun _ _ => True) fresh s ∧ s.intake.length = n ∧
      (∀ x ∈ s.intake, ∃ k, x = .message ⟨k, positionTopic, samplePosition⟩) ∧
      ∀ m v, .taken m v ∉ s.log := by
  induction n with
  | zero => exact ⟨fresh, .refl, rfl, nofun, nofun⟩
  | succ n ih =>
    obtain ⟨s, hs, hlength, hintake, hlog⟩ := ih (Nat.le_of_succ_le hn)
    have hreceive := receive_of_device s positionTopic samplePosition newYear
      (by decide) (by decide)
    rw [State.push, if_pos (by rw [hlength]; exact hn)] at hreceive
    refine ⟨_, hs.tail (.receive positionTopic samplePosition newYear) trivial
      (congrArg some hreceive), ?_, ?_, ?_⟩
    · rw [length_append, hlength]
      rfl
    · exact all_mem_snoc hintake ⟨s.arrivals, rfl⟩
    · intro m v hm
      obtain hm | hm := mem_append.1 hm
      · exact hlog m v hm
      · cases mem_singleton.1 hm

/-- An SOS report is lost to a marker that was exported for its node, and to positions
that fill the intake. -/
theorem sos_lost_to_routine :
    (∃ s, replay (step sampleForwarder) fresh exporterInDistress = some s ∧
        ¬Carried sampleForwarder s) ∧
      ∃ s t, Reaches (step sampleForwarder) (fun _ _ => True) fresh s ∧
        s.intake.length = intakeQueue ∧
        step sampleForwarder s (.receive sosTopic samplePosition newYear) = some t ∧
        ¬Carried sampleForwarder t := by
  constructor
  · have hview : (replay (step sampleForwarder) fresh exporterInDistress).map
        (allPlaced sampleForwarder) = some false := by decide +kernel
    obtain ⟨s, hs, hlost⟩ := Option.map_eq_some_iff.1 hview
    refine ⟨s, hs, fun hcarried => ?_⟩
    rw [allPlaced_of_carried hcarried] at hlost
    cases hlost
  · obtain ⟨s, hs, hlength, hintake, hlog⟩ := flooded sampleForwarder intakeQueue (le_refl _)
    have hreceive := receive_of_device s sosTopic samplePosition newYear (by decide) (by decide)
    rw [State.push, if_neg (by simp [hlength])] at hreceive
    refine ⟨s, _, hs, hlength, congrArg some hreceive, fun hcarried => ?_⟩
    have hguarded : isGuarded sampleForwarder ⟨s.arrivals, sosTopic, samplePosition⟩ newYear
        (urgentLeft s.limits sosTopic newYear) := by
      rw [isGuarded, Bool.or_eq_true]
      refine .inl ?_
      simp only [sosReport]
      decide +kernel
    rcases hcarried.waits _ _ _ (mem_append_right _ (mem_singleton_self _)) hguarded with
      hwaits | ⟨v, hv⟩
    · obtain ⟨k, hk⟩ := hintake _ hwaits
      rw [Inbound.message.injEq, Message.mk.injEq] at hk
      exact absurd hk.2.1 (by decide)
    · obtain hv | hv := mem_append.1 hv
      · exact hlog _ v hv
      · cases mem_singleton.1 hv

end MeshsatHub.Takhosted
