import MeshsatHub.Takhosted.Forwarder

/-!
# Emergencies on their way to the map

Two places on an emergency's way are shared with routine traffic, the intake and the marks of nodes
that export their own marker, and one with the relay frames.
-/

namespace MeshsatHub.Takhosted
open Strings Topics Queues List

section Statement
variable (f : Forwarder) (m : Message)

def sosReport : Option (DeviceTopic × Position) :=
  match parseDeviceTopic m.topic with
  | none => none
  | some t =>
    if t.suffix = "sos" then
      ((f.position m.payload).filter fun pos => !(isZero pos.lat && isZero pos.lon)).map
        fun pos => (t, pos)
    else none

structure Exported where
  tenantID : String
  bridgeID : String
  line : Bytes
  data : Meta

def exportedEmergency (now : Int) : Option Exported :=
  match parseTAKCotOut m.topic, f.sanitize m.payload clientLimits now with
  | some (tenantID, bridgeID), some (line, mt) =>
    if mt.emergency then some ⟨tenantID, bridgeID, line, mt⟩ else none
  | _, _ => none

def isEmergency (now : Int) : Bool :=
  (sosReport f m).isSome || (exportedEmergency f m now).isSome

def isGuarded (now : Int) (left : Bool) : Bool :=
  (sosReport f m).isSome || ((exportedEmergency f m now).isSome && left)

def World.registered (w : World) (tenantID bridgeID : String) : Bool :=
  tenantID != "" && bridgeID != "" && w.bridge tenantID bridgeID == .found

def alarm (v : View) : Option (String × Cargo) :=
  match sosReport f m with
  | some (t, pos) =>
    if v.world.isArtefact t.tenant t.device then none
    else some (t.tenant, .report m.number (positionEvent v.world t.tenant t.device pos))
  | none =>
    match exportedEmergency f m v.now with
    | none => none
    | some e =>
      if v.world.registered e.tenantID e.bridgeID && v.fresh then
        some (e.tenantID, .event m.number (e.line ++ [10]))
      else none

/-- No emergency is lost: it waits or is taken; once it is taken it is put on the queue of
emergencies of every server, or is about to be; it leaves that queue by being handed to
the link or by being displaced, and it is displaced by a later emergency only. The
dispatcher is never held up. -/
structure Carried (s : State) : Prop where
  waits : ∀ m now left, .arrived m now left ∈ s.log → isGuarded f m now left = true →
    .message m ∈ s.intake ∨ ∃ v, .taken m v ∈ s.log
  placed : ∀ m v tenantID cargo, .taken m v ∈ s.log → alarm f m v = some (tenantID, cargo) →
    ∀ up ∈ v.world.upstreams tenantID, ⟨tenantID, ⟨up, cargo⟩, true⟩ ∈ s.dispatching ∨
      .put ⟨up, cargo⟩ ∈ (s.links (upstreamKey tenantID up)).urgent.history
  leaves : ∀ key job, .put job ∈ (s.links key).urgent.history →
    job ∈ (s.links key).urgent.waiting ∨ .taken job ∈ (s.links key).urgent.history ∨
      ∃ new, .displaced job new ∈ (s.links key).urgent.history
  displaced : ∀ key old new, .displaced old new ∈ (s.links key).urgent.history →
    ∃ m v, .taken m v ∈ s.log ∧ isEmergency f m v.now = true ∧
      new.cargo.number = some m.number ∧ ∀ n, old.cargo.number = some n → n < m.number
  takes : ∀ x rest, s.intake = x :: rest → s.dispatching = [] → ∀ w asked now,
    ∃ s', step f s (.dispatch w asked now) = some s' ∧ s'.intake = rest
  places : ∀ p rest, s.dispatching = p :: rest →
    ∃ s', step f s .place = some s' ∧ s'.dispatching = rest

variable (s : State)

def State.hasRoom : Bool := s.intake.length < intakeQueue

/-- An emergency that the bus hands over finds room in the intake and a budget. -/
def clearToReceive (topic : String) (payload : Bytes) (now : Int) : Bool :=
  let m : Message := ⟨s.arrivals, topic, payload⟩
  ((sosReport f m).isNone || s.hasRoom) &&
    match exportedEmergency f m now with
    | none => true
    | some e =>
      !(s.limits.takeUrgent topic e.tenantID now).2 ||
        (s.hasRoom && (looksUrgent payload || (s.limits.takeRoutine topic e.tenantID now).2))

/-- An emergency that the dispatcher takes is not one of a node that exports its own
marker, or of the Hub itself, and names no recipients. -/
def clearToDispatch (asked now : Int) : Bool :=
  match s.intake with
  | .message m :: _ =>
    (match sosReport f m with
      | none => true
      | some (t, _) =>
        !isHubMarkerUID t.device && !suppressed f s.suppress t.tenant t.device now) &&
    match exportedEmergency f m now with
      | none => true
      | some e =>
        !isControlType e.data.type && !isHubMarkerUID e.data.uid &&
          !(e.data.isChat && isHubMarkerUID e.data.sender) && e.data.addressees.isEmpty &&
          (s.reg.cached e.tenantID e.bridgeID asked).all (· == .yes)
  | _ => true

/-- A relay frame is put on a queue of emergencies that has room. -/
def clearToPlace (p : Placement) : Bool :=
  p.job.cargo.number.isSome || (s.links p.key).urgent.waiting.length < linkUrgentQueue

/-- The shared places let an emergency pass. -/
def clear : Event → Bool
  | .receive topic payload now => clearToReceive f s topic payload now
  | .dispatch _ asked now => clearToDispatch f s asked now
  | .place => s.dispatching.head?.all (clearToPlace s)
  | .placeRelay => s.ticking.head?.all (clearToPlace s)
  | _ => true

end Statement

variable {f : Forwarder} {m : Message} {t : DeviceTopic} {pos : Position}

theorem sosReport_spec (h : sosReport f m = some (t, pos)) :
    parseDeviceTopic m.topic = some t ∧ t.suffix = "sos" ∧ f.position m.payload = some pos ∧
      (isZero pos.lat && isZero pos.lon) = false := by
  unfold sosReport at h
  split at h
  · cases h
  case h_2 t' hparse =>
    split at h
    case isTrue hsuffix =>
      obtain ⟨pos', hpos, heq⟩ := Option.map_eq_some_iff.1 h
      cases heq
      obtain ⟨hdecoded, hnonzero⟩ := Option.filter_eq_some_iff.1 hpos
      exact ⟨hparse, hsuffix, hdecoded, (Bool.not_eq_true' _).mp hnonzero⟩
    case isFalse => cases h

theorem levels_of_sos (hparse : parseDeviceTopic m.topic = some t) (hsuffix : t.suffix = "sos") :
    (∃ root second, split '/' m.topic = [root, second, "sos"]) ∨
      ∃ root second third, split '/' m.topic = [root, second, third, "sos"] := by
  have hlacks : Lacks '/' (joinWith "/" ["sos"]) := by decide
  have hone (head : String) (rest : List String) (h : joinWith "/" (head :: rest) = "sos") :
      rest = [] ∧ head = "sos" := by
    have hjoined : Lacks '/' (joinWith (String.singleton '/') (head :: rest)) := by
      change Lacks '/' (joinWith "/" (head :: rest))
      rw [h]
      exact hlacks
    obtain rfl := eq_nil_of_joinWith_lacks hjoined
    exact ⟨rfl, h⟩
  unfold parseDeviceTopic at hparse
  generalize split '/' m.topic = levels at hparse
  revert hparse
  fun_cases parseDeviceLevels levels with rintro ⟨⟩
  | case2 =>
    obtain ⟨rfl, rfl⟩ := hone _ _ hsuffix
    exact .inl ⟨_, _, rfl⟩
  | case3 =>
    obtain ⟨rfl, rfl⟩ := hone _ _ hsuffix
    exact .inr ⟨_, _, _, rfl⟩

theorem topic_of_sos (h : sosReport f m = some (t, pos)) :
    endsWith m.topic cotOutSuffix = false ∧ endsWith m.topic "/health" = false ∧
      endsWith m.topic "/birth" = false ∧ parseTAKCotOut m.topic = none := by
  obtain ⟨hparse, hsuffix, -, -⟩ := sosReport_spec h
  have hlevels := levels_of_sos hparse hsuffix
  have hlast : (split '/' m.topic).getLast? = some "sos" := by
    obtain ⟨_, _, h⟩ | ⟨_, _, _, h⟩ := hlevels <;> rw [h] <;> rfl
  have hne (tail last : String) (hlacks : Lacks '/' last) (htail : tail.toList = '/' :: last.toList)
      (hsos : last ≠ "sos") : endsWith m.topic tail = false := by
    rw [← Bool.not_eq_true]
    intro hends
    rw [getLast?_split hlacks htail hends] at hlast
    exact hsos (Option.some.inj hlast)
  refine ⟨?_, hne "/health" "health" (by decide) rfl (by decide),
    hne "/birth" "birth" (by decide) rfl (by decide), ?_⟩
  · have hout := hne "/out" "out" (by decide) rfl (by decide)
    rw [← Bool.not_eq_true] at hout ⊢
    intro hends
    obtain ⟨front, hfront⟩ := endsWith_iff.1 hends
    refine hout (endsWith_iff.2 ⟨front ++ "/tak/cot", ?_⟩)
    rw [hfront, String.append_assoc]
    rfl
  · rw [parseTAKCotOut, parseBridgeTopic]
    obtain ⟨root, second, h⟩ | ⟨root, second, third, h⟩ := hlevels
    · rw [h]
      rfl
    · rw [h]
      simp only [parseBridgeLevels]
      split_ifs <;> simp_all

variable {x : String × String} {e : Exported} {topic : String}

theorem levels_of_export (h : parseTAKCotOut topic = some x) :
    ∃ front, front ≠ [] ∧ split '/' topic = front ++ ["tak", "cot", "out"] := by
  unfold parseTAKCotOut parseBridgeTopic at h
  generalize split '/' topic = levels at h
  split at h
  · cases h
  case h_2 t ht =>
    split at h
    case isTrue hrest =>
      unfold parseBridgeLevels at ht
      split at ht
      case h_1 root second third fourth rest =>
        split_ifs at ht
        · cases ht
          refine ⟨[root, second, third], cons_ne_nil _ _, ?_⟩
          rw [← hrest]
          rfl
        · cases ht
          refine ⟨[root, second, third, fourth], cons_ne_nil _ _, ?_⟩
          rw [← hrest]
          rfl
      case h_2 => cases ht
    case isFalse => cases h

theorem endsWith_of_export (h : parseTAKCotOut topic = some x) : endsWith topic cotOutSuffix := by
  obtain ⟨front, hfront, hlevels⟩ := levels_of_export h
  exact endsWith_of_split hlevels hfront (cons_ne_nil _ _) (by decide)

theorem exportedEmergency_iff {now : Int} : exportedEmergency f m now = some e ↔
      parseTAKCotOut m.topic = some (e.tenantID, e.bridgeID) ∧
        f.sanitize m.payload clientLimits now = some (e.line, e.data) ∧
        e.data.emergency := by
  constructor
  · intro h
    unfold exportedEmergency at h
    split at h
    case h_1 tenantID bridgeID line mt hparse hsanitize =>
      split at h
      case isTrue hemergency =>
        cases h
        exact ⟨hparse, hsanitize, hemergency⟩
      case isFalse => cases h
    · cases h
  · rintro ⟨hparse, hsanitize, hemergency⟩
    rw [exportedEmergency, hparse, hsanitize]
    exact if_pos hemergency

theorem sosReport_eq_none {now : Int} (h : exportedEmergency f m now = some e) :
    sosReport f m = none := by
  cases hsos : sosReport f m with
  | none => rfl
  | some r =>
    obtain ⟨-, -, -, hnone⟩ := topic_of_sos hsos
    rw [(exportedEmergency_iff.1 h).1] at hnone
    cases hnone

variable {s : State} {topic : String} {payload : Bytes} {now : Int} {x : Inbound}

def messages (intake : List Inbound) : List Message :=
  intake.filterMap fun
    | .message m => some m
    | .connect _ => none

theorem mem_messages {intake : List Inbound} : m ∈ messages intake ↔ .message m ∈ intake := by
  unfold messages
  rw [mem_filterMap]
  constructor
  · rintro ⟨x, hx, heq⟩
    cases x with cases heq
    | message n => exact hx
  · exact fun h => ⟨_, h, rfl⟩

theorem admits_of_clear (hexported : exportedEmergency f ⟨s.arrivals, topic, payload⟩ now = some e)
    (hleft : (s.limits.takeUrgent topic e.tenantID now).2)
    (hlooks : looksUrgent payload || (s.limits.takeRoutine topic e.tenantID now).2) :
    (admits s.limits topic payload now).2 := by
  obtain ⟨hparse, hsanitize, -⟩ := exportedEmergency_iff.1 hexported
  have hsize : ¬clientLimits.maxBytes < payload.length := by
    intro hlarge
    rw [Forwarder.sanitize, if_pos (.inr hlarge)] at hsanitize
    cases hsanitize
  rw [admits, if_neg hsize, hparse]
  by_cases hurgent : looksUrgent payload
  · simp only [if_pos hurgent, hleft, if_true]
  · rw [Bool.not_eq_true] at hurgent
    rw [hurgent, Bool.false_or] at hlooks
    simp only [hurgent, Bool.false_eq_true, if_false]
    exact hlooks

theorem push_of_room (h : s.hasRoom) : (s.push x).intake = s.intake ++ [x] := by
  rw [State.push, if_pos (by simpa [State.hasRoom] using h)]

theorem push_eq (s : State) (x : Inbound) : s.push x = { s with intake := (s.push x).intake } ∧
      ((s.push x).intake = s.intake ∨ (s.push x).intake = s.intake ++ [x]) := by
  unfold State.push
  split
  · exact ⟨rfl, .inr rfl⟩
  · exact ⟨rfl, .inl rfl⟩

theorem push_message (s : State) (m : Message) :
    messages (s.push (.message m)).intake = messages s.intake ∨
      messages (s.push (.message m)).intake = messages s.intake ++ [m] := by
  obtain h | h := (push_eq s (.message m)).2
  · exact .inl (by rw [h])
  · exact .inr (by rw [h, messages, filterMap_append]; rfl)

theorem push_connect (s : State) (tenantID : String) :
    messages (s.push (.connect tenantID)).intake = messages s.intake := by
  obtain h | h := (push_eq s (.connect tenantID)).2
  · rw [h]
  · rw [h, messages, filterMap_append]
    exact append_nil _

theorem clearToReceive_spec (hclear : clearToReceive f s topic payload now)
    (hguarded : isGuarded f ⟨s.arrivals, topic, payload⟩ now (urgentLeft s.limits topic now)) :
    s.hasRoom ∧
      ((∃ r, sosReport f ⟨s.arrivals, topic, payload⟩ = some r) ∨
        endsWith topic cotOutSuffix ∧ (admits s.limits topic payload now).2) := by
  rw [clearToReceive, Bool.and_eq_true] at hclear
  obtain ⟨hsos, hexport⟩ := hclear
  rw [isGuarded, Bool.or_eq_true] at hguarded
  obtain hguarded | hguarded := hguarded
  · obtain ⟨r, hr⟩ := Option.isSome_iff_exists.1 hguarded
    rw [hr] at hsos
    exact ⟨hsos, .inl ⟨r, hr⟩⟩
  · rw [Bool.and_eq_true] at hguarded
    obtain ⟨e, he⟩ := Option.isSome_iff_exists.1 hguarded.1
    have hparse := (exportedEmergency_iff.1 he).1
    have hleft := hguarded.2
    rw [urgentLeft, hparse] at hleft
    rw [he] at hexport
    simp only [hleft, Bool.not_true, Bool.false_or, Bool.and_eq_true] at hexport
    exact ⟨hexport.1, .inr ⟨endsWith_of_export hparse, admits_of_clear he hleft hexport.2⟩⟩

theorem receive_spec (f : Forwarder) (s : State) (topic : String) (payload : Bytes) (now : Int) :
    ∃ limits present intake,
      receive s topic payload now =
        { s with
          arrivals := s.arrivals + 1
          limits := limits
          present := present
          intake := intake
          log := s.log ++
            [.arrived ⟨s.arrivals, topic, payload⟩ now (urgentLeft s.limits topic now)] } ∧
      (messages intake = messages s.intake ∨
        messages intake = messages s.intake ++ [⟨s.arrivals, topic, payload⟩]) ∧
      (clearToReceive f s topic payload now →
        isGuarded f ⟨s.arrivals, topic, payload⟩ now (urgentLeft s.limits topic now) →
        .message ⟨s.arrivals, topic, payload⟩ ∈ intake) := by
  set m : Message := ⟨s.arrivals, topic, payload⟩ with hm
  have hroom {t : State} (ht : t.intake = s.intake) (h : s.hasRoom) :
      Inbound.message m ∈ (t.push (.message m)).intake := by
    rw [push_of_room (by rwa [State.hasRoom, ht] : t.hasRoom)]
    exact mem_append_right _ (mem_singleton_self _)
  have hnot {t : State} (hends : ¬endsWith topic cotOutSuffix)
      (hother : (endsWith topic "/health" || endsWith topic "/birth"))
      (hclear : clearToReceive f s topic payload now)
      (hguarded : isGuarded f m now (urgentLeft s.limits topic now)) :
      Inbound.message m ∈ t.intake := by
    obtain ⟨r, hr⟩ | ⟨hexport, -⟩ := (clearToReceive_spec hclear hguarded).2
    · obtain ⟨-, hhealth, hbirth, -⟩ := topic_of_sos hr
      rw [hhealth, hbirth] at hother
      cases hother
    · exact absurd hexport hends
  fun_cases receive s topic payload now with
  | case1 | case7 =>
    rw [(push_eq _ _).1]
    refine ⟨_, _, _, rfl, push_message _ _, ?_⟩
    exact fun hclear hguarded => hroom rfl (clearToReceive_spec hclear hguarded).1
  | case2 _ _ hends _ _ hadmits _ hok =>
    refine ⟨_, _, _, rfl, .inl rfl, ?_⟩
    intro hclear hguarded
    obtain ⟨r, hr⟩ | ⟨-, hleft⟩ := (clearToReceive_spec hclear hguarded).2
    · rw [(topic_of_sos hr).1] at hends
      cases hends
    · exact absurd ((congrArg Prod.snd hadmits).symm.trans hleft) hok
  | case4 _ _ hends hother =>
    rw [(push_eq _ _).1]
    exact ⟨_, _, _, rfl, .inl (push_connect _ _), hnot hends hother⟩
  | case3 _ _ hends hother | case5 _ _ hends hother | case6 _ _ hends hother =>
    exact ⟨_, _, _, rfl, .inl rfl, hnot (t := s) hends hother⟩

variable {w : World} {asked : Int}

/-- Each server has an address of its own. -/
def Distinct (ups : List Upstream) : Prop := ups.Pairwise fun a b => a.address ≠ b.address

theorem upstreams_distinct (w : World) (tenantID : String) : Distinct (w.upstreams tenantID) := by
  have hadd (out : List Upstream) (up : Upstream) (hout : Distinct out) :
      Distinct (if up.address = "" ∨ out.any (fun other => other.address == up.address) then out
        else out ++ [up]) := by
    split
    · exact hout
    case isFalse hnew =>
      unfold Distinct
      rw [pairwise_append]
      refine ⟨hout, pairwise_singleton _ _, ?_⟩
      intro a ha b hb heq
      rw [mem_singleton] at hb
      subst hb
      exact hnew (.inr (any_eq_true.2 ⟨a, ha, by simpa using heq⟩))
  have hnil : Distinct [] := Pairwise.nil
  unfold World.upstreams
  split
  · exact hnil
  · cases w.hosted tenantID with
    | none =>
      cases w.external tenantID with
      | none => exact hnil
      | some up => exact hadd [] up hnil
    | some first =>
      have hfirst := hadd [] first hnil
      cases w.external tenantID with
      | none => exact hfirst
      | some up => exact hadd _ up hfirst

structure OfMessage (f : Forwarder) (m : Message) (now : Int) (ps : List Placement) : Prop where
  number : ∀ p ∈ ps, ∀ n, p.job.cargo.number = some n →
    n = m.number ∧ (p.urgent = true → isEmergency f m now = true)
  distinct : ps.Pairwise fun p p' =>
    p.job.cargo.number.isSome → p'.job.cargo.number.isSome → p.key ≠ p'.key

theorem ofMessage_nil : OfMessage f m now [] :=
  ⟨nofun, Pairwise.nil⟩

variable {tenantID bridgeID : String} {s' : State} {cargo : Cargo}

theorem ofMessage_map {urgent : Bool} (hnumber : cargo.number = some m.number)
    (hurgent : urgent → isEmergency f m now) :
    OfMessage f m now ((w.upstreams tenantID).map fun up => ⟨tenantID, ⟨up, cargo⟩, urgent⟩) := by
  constructor
  · intro p hp n hn
    obtain ⟨up, -, rfl⟩ := mem_map.1 hp
    rw [hnumber] at hn
    exact ⟨(Option.some.inj hn).symm, hurgent⟩
  · rw [pairwise_map]
    apply (upstreams_distinct w tenantID).imp
    intro a b hne _ _ hkey
    apply hne
    exact (String.append_right_inj _).1 hkey

theorem ofMessage_append {frames ps : List Placement}
    (hframes : ∀ p ∈ frames, p.job.cargo.number = none) (h : OfMessage f m now ps) :
    OfMessage f m now (frames ++ ps) := by
  constructor
  · intro p hp n hn
    obtain hp | hp := mem_append.1 hp
    · rw [hframes p hp] at hn
      cases hn
    · exact h.number p hp n hn
  · rw [pairwise_append]
    refine ⟨?_, h.distinct, ?_⟩
    · refine pairwise_of_forall_mem_list fun p hp q _ hsome => ?_
      rw [hframes p hp] at hsome
      cases hsome
    · intro p hp q _ hsome
      rw [hframes p hp] at hsome
      cases hsome

/-- What the invariant reads besides the dispatcher's placements is the same. -/
structure Frame (s s' : State) : Prop where
  arrivals : s'.arrivals = s.arrivals
  intake : s'.intake = s.intake
  links : s'.links = s.links
  ticking : s'.ticking = s.ticking
  log : s'.log = s.log

theorem Frame.refl (s : State) : Frame s s := ⟨rfl, rfl, rfl, rfl, rfl⟩

theorem Frame.trans {s'' : State} (h : Frame s s') (h' : Frame s' s'') : Frame s s'' :=
  ⟨h'.arrivals.trans h.arrivals, h'.intake.trans h.intake, h'.links.trans h.links,
    h'.ticking.trans h.ticking, h'.log.trans h.log⟩

theorem onPosition_spec (f : Forwarder) (w : World) (m : Message) (now : Int)
    (hidle : s.dispatching = []) :
    Frame s (onPosition f s w now m) ∧ OfMessage f m now (onPosition f s w now m).dispatching ∧
      ∀ t pos, sosReport f m = some (t, pos) → isHubMarkerUID t.device = false →
        suppressed f s.suppress t.tenant t.device now = false →
        w.isArtefact t.tenant t.device = false →
        ∀ up ∈ w.upstreams t.tenant,
          ⟨t.tenant, ⟨up, .report m.number (positionEvent w t.tenant t.device pos)⟩, true⟩ ∈
            (onPosition f s w now m).dispatching := by
  have hnothing : OfMessage f m now s.dispatching := hidle ▸ ofMessage_nil
  fun_cases onPosition f s w now m with
  | case1 hparse =>
    refine ⟨Frame.refl s, hnothing, fun t pos hsos => ?_⟩
    rw [(sosReport_spec hsos).1] at hparse
    cases hparse
  | case2 t hparse hskip =>
    refine ⟨Frame.refl s, hnothing, fun t' pos hsos hmarker hsuppressed => ?_⟩
    cases (sosReport_spec hsos).1.symm.trans hparse
    rw [hmarker, hsuppressed] at hskip
    cases hskip
  | case3 t hparse _ hpos =>
    refine ⟨Frame.refl s, hnothing, fun t' pos hsos => ?_⟩
    rw [(sosReport_spec hsos).2.2.1] at hpos
    cases hpos
  | case4 t hparse _ pos hpos hzero =>
    refine ⟨Frame.refl s, hnothing, fun t' pos' hsos => ?_⟩
    cases (sosReport_spec hsos).2.2.1.symm.trans hpos
    rw [(sosReport_spec hsos).2.2.2] at hzero
    cases hzero
  | case5 t hparse _ pos hpos _ hnowhere =>
    refine ⟨Frame.refl s, hnothing, fun t' pos' hsos _ _ hartefact up hup => ?_⟩
    cases (sosReport_spec hsos).1.symm.trans hparse
    rw [hartefact, Bool.or_false, List.isEmpty_iff] at hnowhere
    rw [hnowhere] at hup
    cases hup
  | case6 t hparse _ pos hpos hnonzero =>
    refine ⟨⟨rfl, rfl, rfl, rfl, rfl⟩, ofMessage_map rfl ?_, ?_⟩
    · intro hsuffix
      rw [isEmergency, Bool.or_eq_true]
      refine .inl ?_
      rw [sosReport, hparse]
      simp only [beq_iff_eq] at hsuffix
      simp [hsuffix, hpos, Option.filter, hnonzero]
    · intro t' pos' hsos _ _ _ up hup
      obtain ⟨htopic, hsuffix, hposition, -⟩ := sosReport_spec hsos
      cases htopic.symm.trans hparse
      cases hposition.symm.trans hpos
      rw [show (t.suffix == "sos") by simpa using hsuffix]
      exact mem_map_of_mem hup

theorem sendRelay_frames (o : Owners) (tenantID : String) :
    ∀ p ∈ (sendRelay f o w tenantID now).2, p.job.cargo.number = none := by
  unfold sendRelay
  dsimp only
  split
  · exact nofun
  · split
    · exact nofun
    · intro p hp
      obtain ⟨up, -, rfl⟩ := mem_map.1 hp
      rfl

def AddsRelays (s s' : State) : Prop :=
  Frame s s' ∧ ∃ frames, s'.dispatching = s.dispatching ++ frames ∧
    ∀ p ∈ frames, p.job.cargo.number = none

theorem AddsRelays.after {t : State} (h : AddsRelays t s') (hframe : Frame s t)
    (heq : t.dispatching = s.dispatching) : AddsRelays s s' := by
  obtain ⟨hsame, frames, hdispatching, hframes⟩ := h
  exact ⟨hframe.trans hsame, frames, hdispatching.trans (by rw [heq]), hframes⟩

theorem addsRelays_of_frame (h : Frame s s') (heq : s'.dispatching = s.dispatching) :
    AddsRelays s s' :=
  ⟨h, [], heq.trans (append_nil _).symm, nofun⟩

theorem observeOwner_spec (s : State) (w : World) (asked : Int)
    (tenantID bridgeID uid callsign : String) (seen : Int) :
    AddsRelays s (observeOwner f s w asked tenantID bridgeID uid callsign seen) := by
  unfold observeOwner
  dsimp only
  split
  · exact addsRelays_of_frame ⟨rfl, rfl, rfl, rfl, rfl⟩ rfl
  · split
    · exact addsRelays_of_frame ⟨rfl, rfl, rfl, rfl, rfl⟩ rfl
    · exact ⟨⟨rfl, rfl, rfl, rfl, rfl⟩, _, rfl, sendRelay_frames _ _⟩

theorem noteExporter_spec (s : State) (w : World) (asked now : Int) (tenantID bridgeID : String)
    (mt : Meta) : AddsRelays s (noteExporter f s w asked now tenantID bridgeID mt) := by
  unfold noteExporter
  split
  · split
    · exact addsRelays_of_frame ⟨rfl, rfl, rfl, rfl, rfl⟩ rfl
    · exact (observeOwner_spec _ w asked tenantID bridgeID mt.uid mt.callsign _).after
        ⟨rfl, rfl, rfl, rfl, rfl⟩ rfl
  · exact addsRelays_of_frame (Frame.refl s) rfl

theorem bridgeRegistered_of {reg : Registrations} (hregistered : w.registered tenantID bridgeID)
    (hcached : (reg.cached tenantID bridgeID asked).all (· == .yes)) :
    (bridgeRegistered reg w tenantID bridgeID asked).2 = .yes := by
  simp only [World.registered, Bool.and_eq_true, bne_iff_ne, beq_iff_eq] at hregistered
  obtain ⟨⟨htenant, hbridge⟩, hfound⟩ := hregistered
  rw [bridgeRegistered, if_neg (by simp [htenant, hbridge])]
  cases hreg : reg.cached tenantID bridgeID asked with
  | none => rw [hfound]
  | some is =>
    rw [hreg] at hcached
    simpa using hcached

theorem toUpstreams_spec (w : World) (tenantID : String) (line : Bytes) {mt : Meta}
    (hnothing : ∀ p ∈ s.dispatching, p.job.cargo.number = none)
    (hemergency : mt.emergency → isEmergency f m now) :
    Frame s (toUpstreams s w tenantID m line mt now) ∧
      OfMessage f m now (toUpstreams s w tenantID m line mt now).dispatching ∧
      ∀ up ∈ w.upstreams tenantID,
        ⟨tenantID, ⟨up, .event m.number (line ++ [10])⟩, mt.emergency⟩ ∈
          (toUpstreams s w tenantID m line mt now).dispatching := by
  unfold toUpstreams
  split
  case isTrue hnowhere =>
    refine ⟨Frame.refl s, ?_, ?_⟩
    · rw [← append_nil s.dispatching]
      exact ofMessage_append hnothing ofMessage_nil
    · intro up hup
      rw [isEmpty_iff.1 hnowhere] at hup
      cases hup
  case isFalse =>
    refine ⟨⟨rfl, rfl, rfl, rfl, rfl⟩, ofMessage_append hnothing (ofMessage_map rfl hemergency), ?_⟩
    exact fun up hup => mem_append_right _ (mem_map_of_mem hup)

theorem onCot_spec (w : World) (asked now : Int) (hidle : s.dispatching = [])
    (hparse : parseTAKCotOut m.topic = some (tenantID, bridgeID)) :
    Frame s (onCot f s w asked now tenantID bridgeID m) ∧
      OfMessage f m now (onCot f s w asked now tenantID bridgeID m).dispatching ∧
      ∀ e, exportedEmergency f m now = some e → w.registered tenantID bridgeID →
        isFirst f s.seen tenantID e.line now →
        (s.reg.cached tenantID bridgeID asked).all (· == .yes) →
        (isControlType e.data.type || isHubMarkerUID e.data.uid ||
          (e.data.isChat && isHubMarkerUID e.data.sender)) = false →
        e.data.addressees.isEmpty →
        ∀ up ∈ w.upstreams tenantID,
          ⟨tenantID, ⟨up, .event m.number (e.line ++ [10])⟩, true⟩ ∈
            (onCot f s w asked now tenantID bridgeID m).dispatching := by
  have hnothing : OfMessage f m now s.dispatching := hidle ▸ ofMessage_nil
  have hevent {line : Bytes} {mt : Meta} {e : Exported}
      (hsanitize : f.sanitize m.payload clientLimits now = some (line, mt))
      (he : exportedEmergency f m now = some e) :
      e.line = line ∧ e.data = mt ∧ mt.emergency := by
    obtain ⟨-, hdata, hemergency⟩ := exportedEmergency_iff.1 he
    cases hdata.symm.trans hsanitize
    exact ⟨rfl, rfl, hemergency⟩
  have hrelays (t : State) (mt : Meta) (hframe : Frame s t)
      (hsame : t.dispatching = s.dispatching) :
      Frame s (noteExporter f t w asked now tenantID bridgeID mt) ∧
        ∀ p ∈ (noteExporter f t w asked now tenantID bridgeID mt).dispatching,
          p.job.cargo.number = none := by
    obtain ⟨hbefore, frames, hdispatching, hframes⟩ :=
      (noteExporter_spec t w asked now tenantID bridgeID mt).after hframe hsame
    rw [hdispatching, hidle, nil_append]
    exact ⟨hbefore, hframes⟩
  fun_cases onCot f s w asked now tenantID bridgeID m with
  | case1 reg is hreg _ hunregistered =>
    refine ⟨⟨rfl, rfl, rfl, rfl, rfl⟩, hnothing, fun e he hregistered _ hcached => ?_⟩
    have his := bridgeRegistered_of hregistered hcached
    rw [hreg] at his
    exact absurd his hunregistered
  | case2 _ _ _ _ _ hsanitize =>
    refine ⟨⟨rfl, rfl, rfl, rfl, rfl⟩, hnothing, fun e he => ?_⟩
    rw [(exportedEmergency_iff.1 he).2.1] at hsanitize
    cases hsanitize
  | case3 _ _ _ _ _ line mt hsanitize hrefused =>
    refine ⟨⟨rfl, rfl, rfl, rfl, rfl⟩, hnothing, fun e he _ _ _ haccepted => ?_⟩
    rw [(hevent hsanitize he).2.1, hrefused] at haccepted
    cases haccepted
  | case4 _ _ _ t _ line mt hsanitize _ hseen =>
    refine ⟨⟨rfl, rfl, rfl, rfl, rfl⟩, hnothing, fun e he _ hfirst => ?_⟩
    rw [(hevent hsanitize he).1] at hfirst
    simp only [t, hfirst, Bool.not_true, Bool.false_eq_true] at hseen
  | case5 _ _ _ _ _ line mt hsanitize _ _ t =>
    obtain ⟨hbefore, hrelay⟩ := hrelays t mt ⟨rfl, rfl, rfl, rfl, rfl⟩ rfl
    have hemergency (h : mt.emergency) : isEmergency f m now := by
      have he : exportedEmergency f m now = some ⟨tenantID, bridgeID, line, mt⟩ :=
        exportedEmergency_iff.2 ⟨hparse, hsanitize, h⟩
      rw [isEmergency, he, Option.isSome_some, Bool.or_true]
    obtain ⟨hsent, hof, hevery⟩ := toUpstreams_spec w tenantID line hrelay hemergency
    refine ⟨hbefore.trans hsent, hof, fun e he _ _ _ _ _ up hup => ?_⟩
    obtain ⟨hline, -, hurgent⟩ := hevent hsanitize he
    have hin := hevery up hup
    rw [hurgent] at hin
    rwa [hline]
  | case6 _ _ _ _ _ line mt hsanitize _ _ t _ haddressed =>
    obtain ⟨hbefore, hrelay⟩ := hrelays t mt ⟨rfl, rfl, rfl, rfl, rfl⟩ rfl
    refine ⟨hbefore, ?_, fun e he _ _ _ _ hempty => ?_⟩
    · rw [← append_nil (State.dispatching _)]
      exact ofMessage_append hrelay ofMessage_nil
    · rw [(hevent hsanitize he).2.1] at hempty
      rw [hempty, Bool.true_or] at haddressed
      exact absurd rfl haddressed

theorem alarm_cases {v : View} (h : alarm f m v = some (tenantID, cargo)) :
    (∃ t pos, sosReport f m = some (t, pos) ∧ v.world.isArtefact t.tenant t.device = false ∧
        tenantID = t.tenant ∧
        cargo = .report m.number (positionEvent v.world t.tenant t.device pos)) ∨
      ∃ e, exportedEmergency f m v.now = some e ∧
        v.world.registered e.tenantID e.bridgeID ∧ v.fresh ∧
        tenantID = e.tenantID ∧ cargo = .event m.number (e.line ++ [10]) := by
  revert h
  fun_cases alarm f m v with rintro ⟨⟩
  | case2 t pos hsos hartefact => exact .inl ⟨t, pos, hsos, by simpa using hartefact, rfl, rfl⟩
  | case4 _ e he hdue =>
    rw [Bool.and_eq_true] at hdue
    exact .inr ⟨e, he, hdue.1, hdue.2, rfl, rfl⟩

theorem dispatch_spec (h : dispatch f s w asked now = some s') : s.dispatching = [] ∧
      ((∃ tenantID rest, s.intake = .connect tenantID :: rest ∧ Frame { s with intake := rest } s' ∧
          s'.dispatching = []) ∨
        ∃ m rest, s.intake = .message m :: rest ∧
          Frame { s with
            intake := rest
            log := s.log ++ [.taken m ⟨w, asked, now, freshAt f s now m⟩] } s' ∧
          OfMessage f m now s'.dispatching ∧
          (clearToDispatch f s asked now →
            ∀ tenantID cargo,
              alarm f m ⟨w, asked, now, freshAt f s now m⟩ = some (tenantID, cargo) →
              ∀ up ∈ w.upstreams tenantID, ⟨tenantID, ⟨up, cargo⟩, true⟩ ∈ s'.dispatching)) := by
  unfold dispatch at h
  split at h
  case isTrue => cases h
  case isFalse hidle =>
    have hidle : s.dispatching = [] := by simpa using hidle
    refine ⟨hidle, ?_⟩
    cases hintake : s.intake with rw [hintake] at h
    | nil => cases h
    | cons x rest =>
      cases x with
      | connect tenantID =>
        cases h
        refine .inl ⟨tenantID, rest, rfl, ?_⟩
        unfold connectTenant
        split
        · exact ⟨Frame.refl _, hidle⟩
        · split
          · exact ⟨Frame.refl _, hidle⟩
          · exact ⟨⟨rfl, rfl, rfl, rfl, rfl⟩, hidle⟩
      | message m =>
        refine .inr ⟨m, rest, rfl, ?_⟩
        cases hparse : parseTAKCotOut m.topic with simp only [hparse, Option.some.injEq] at h
        | some r =>
          subst h
          obtain ⟨hframe, hof, hevery⟩ := onCot_spec (f := f) (m := m)
            (s := { s with
              intake := rest
              log := s.log ++ [.taken m ⟨w, asked, now, freshAt f s now m⟩] })
            w asked now hidle hparse
          refine ⟨hframe, hof, ?_⟩
          intro hclear tenantID' cargo halarm up hup
          obtain ⟨t, pos, hsos, -⟩ | ⟨e, he, hregistered, hfresh, rfl, rfl⟩ := alarm_cases halarm
          · rw [(topic_of_sos hsos).2.2.2] at hparse
            cases hparse
          · obtain ⟨hparse', hsanitize, -⟩ := exportedEmergency_iff.1 he
            rw [hparse] at hparse'
            cases hparse'
            rw [clearToDispatch, hintake] at hclear
            simp only [sosReport_eq_none he, he, Bool.true_and, Bool.and_eq_true,
              Bool.not_eq_true'] at hclear
            obtain ⟨⟨⟨⟨hcontrol, huid⟩, hchat⟩, haddressed⟩, hcached⟩ := hclear
            simp only [freshAt, hparse, hsanitize] at hfresh
            refine hevery e he hregistered hfresh hcached ?_ haddressed up hup
            rw [hcontrol, huid, hchat]
            rfl
        | none =>
          subst h
          obtain ⟨hframe, hof, hevery⟩ := onPosition_spec f w m now
            (s := { s with
              intake := rest
              log := s.log ++ [.taken m ⟨w, asked, now, freshAt f s now m⟩] }) hidle
          refine ⟨hframe, hof, ?_⟩
          intro hclear tenantID' cargo halarm up hup
          obtain ⟨t, pos, hsos, hartefact, rfl, rfl⟩ | ⟨e, he, -⟩ := alarm_cases halarm
          · rw [clearToDispatch, hintake] at hclear
            simp only [hsos, Bool.and_eq_true, Bool.not_eq_true'] at hclear
            exact hevery t pos hsos hclear.1.1 hclear.1.2 hartefact up hup
          · rw [(exportedEmergency_iff.1 he).1] at hparse
            cases hparse

theorem dispatch_total {rest : List Inbound} (hintake : s.intake = x :: rest)
    (hidle : s.dispatching = []) (w : World) (asked now : Int) :
    ∃ s', dispatch f s w asked now = some s' ∧ s'.intake = rest := by
  have hsome : ∃ s', dispatch f s w asked now = some s' := by
    rw [dispatch, hidle, hintake]
    cases x with
    | message m | connect tenantID => exact ⟨_, rfl⟩
  obtain ⟨s', hs'⟩ := hsome
  refine ⟨s', hs', ?_⟩
  rcases (dispatch_spec hs').2 with
    ⟨_, rest', hintake', hframe, -⟩ | ⟨_, rest', hintake', hframe, -⟩
  all_goals
    rw [hintake, List.cons.injEq] at hintake'
    rw [hframe.intake, hintake'.2]

end MeshsatHub.Takhosted
