import MeshsatHub.Foundations.Interleaving
import MeshsatHub.Inbound.Attribution

/-!
# Satellite messages the provider was told are received

Deliveries of satellite messages and their repeats, on any number of replicas. The duplicate filter
is marked before anything is kept, a repeat is answered from the mark alone, and a failed
publication or insert is only logged. A handler that stops is not scheduled any more. The filter is
empty at the start.
-/

namespace MeshsatHub.Inbound
open Interleaving Procedures Runs Tenancy List Bool

section

structure Letter where
  tenant : String
  device : String
  messageID : String
  data : Bytes
  deriving DecidableEq

/-- The message a delivery speaks for. -/
def Terms.letter (cfg : Config) (w : Terms) : Letter where
  tenant := cfg.registry.rightful w.url w.device
  device := w.device
  messageID := w.messageID
  data := w.data

/-- The id under which an entry keeps a message: in a row, or on the topic `mo/decoded`. -/
def Entry.messageID : Entry → Option String
  | .filed _ _ (.insert m) _ => some m.id
  | .filed _ _ (.publish .moDecoded (.decoded m)) _ => some m.id
  | _ => none

def Entry.keeps (q : Letter) (e : Entry) : Bool :=
  e.tenant = some q.tenant && e.messageID = some q.messageID

/-- The store, and what took place for which message. -/
structure Ledger where
  store : Store
  log : List (Letter × Entry)

/-- The message has been stored or published by a delivery of it. -/
def Ledger.kept (g : Ledger) (q : Letter) : Bool :=
  g.log.any fun p => p.1 = q && p.2.keeps q

theorem Ledger.kept_iff {g : Ledger} {q : Letter} : g.kept q ↔ ∃ e, (q, e) ∈ g.log ∧ e.keeps q := by
  simp only [Ledger.kept, any_eq_true, and_eq_true, decide_eq_true_eq, Prod.exists]
  constructor
  · rintro ⟨q', e, hmem, rfl, hkeeps⟩
    exact ⟨e, hmem, hkeeps⟩
  · rintro ⟨e, hmem, hkeeps⟩
    exact ⟨q, e, hmem, rfl, hkeeps⟩

structure Arriving where
  replica : Nat
  url : String
  message : Satellite

/-- A delivery that is being handled: what it speaks for, how far it has come, and what
the handler has still to do. -/
structure Handling where
  replica : Nat
  terms : Terms
  phase : Phase
  rest : Handler Answer

variable (cfg : Config)

def Ledger.after (g : Ledger) (l : Handling) (c : Choice) (op : Op) : Ledger where
  store := (respond cfg l.replica g.store c op).state
  log := g.log ++ (respond cfg l.replica g.store c op).emits.map (Prod.mk (l.terms.letter cfg))

/-- The handling of deliveries, operation by operation. -/
def handlings : Program Ledger Handling Arriving Choice where
  start := fun g b => some (g, ⟨b.replica, b.message.terms cfg.codecs b.url, .start,
    b.message.handle cfg.codecs b.url⟩)
  perform := fun g l c =>
    match l.rest with
    | .done _ => none
    | .ask op next =>
      let answer := (respond cfg l.replica g.store c op).answer
      some (g.after cfg l c op, { l with phase := l.phase.next op answer, rest := next answer })

/-- Nothing is marked, logged or under way. -/
def unmarked (g : Store) : System Ledger Handling :=
  ⟨⟨{ g with seen := fun _ => none }, []⟩, []⟩

/-- Two deliveries with one key of the filter are of one message, and two of a modem
with one id have one payload. -/
def Terms.Agree (w v : Terms) : Prop :=
  (w.key = v.key → w.letter cfg = v.letter cfg) ∧
    (w.device = v.device → w.messageID = v.messageID → w.data = v.data)

instance (w v : Terms) : Decidable (w.Agree cfg v) :=
  inferInstanceAs (Decidable (_ ∧ _))

/-- What the operation of a handling needs. Where the filter is marked already, whoever
passed it has come to its insert or has kept the message; an insert goes through, under the
rightful tenant, unless the message is kept already. -/
def Handling.Secured (s : System Ledger Handling) (l : Handling) (c : Choice) : Op → Bool
  | .isNew key => (s.shared.store.seen key).all (fun expiry => expiry ≤ c.failures.now) ||
      s.calls.all fun m => m.terms.key ≠ key || m.phase ≠ .fresh ||
        s.shared.kept (m.terms.letter cfg)
  | .file _ _ (.insert m) => s.shared.kept (l.terms.letter cfg) ||
      (Effect.insert m).takesPlace cfg s.shared.store c (l.terms.letter cfg).tenant
          l.terms.device &&
        (astray (s.shared.store.resolvers l.replica) cfg.registry c.failures l.terms.url
          l.terms.device).isNone
  | _ => true

def secured (s : System Ledger Handling) : Event Arriving Choice → Bool
  | .start b => s.calls.all fun m => m.terms.Agree cfg (b.message.terms cfg.codecs b.url)
  | .act i c =>
    match s.calls[i]? with
    | none => true
    | some l =>
      match l.rest with
      | .done _ => true
      | .ask op _ => l.Secured cfg s c op

end

variable {cfg : Config} {replica : Nat} {g : Store} {c : Choice} {op : Op} {key : String}

theorem respond_seen (h : ((respond cfg replica g c op).state.seen key).isSome) :
    op = .isNew key ∧ (g.isNew cfg c key).1 ∨ (g.seen key).isSome := by
  have hfile (h : Store) (tenant id : String) (effect : Effect) :
      (h.file cfg c tenant id effect).1.seen = h.seen := by
    unfold Store.file
    split
    · cases effect <;> rfl
    · rfl
  cases op with
  | isNew key' =>
    simp only [respond, Store.isNew] at h ⊢
    split at h
    case isTrue => exact .inr h
    case isFalse hnew =>
      by_cases hkey : key = key'
      · subst hkey
        exact .inl ⟨rfl, by simp [hnew]⟩
      · exact .inr (by simpa [hkey] using h)
  | file id auth effect => exact .inr (by simpa only [respond, hfile, Store.lookup_seen] using h)
  | fileAs tenant id effect => exact .inr (by simpa only [respond, hfile] using h)
  | handleInbound bearer origin text =>
    refine .inr ?_
    simp only [respond] at h
    split at h <;> exact h
  | _ => exact .inr h

variable {phase : Phase} {w : Terms} {id : String}

theorem respond_messageID (hallows : w.Allows phase op) {e : Entry}
    (he : e ∈ (respond cfg replica g c op).emits) (hid : e.messageID = some id) :
    id = w.messageID := by
  cases op with
  | file device auth effect =>
    obtain ⟨-, rfl⟩ := Store.mem_file.1 he
    obtain ⟨-, -, hcarries, -⟩ := hallows
    revert hid hcarries
    unfold Entry.messageID
    split <;> simp_all [Effect.Carries]
  | handleInbound bearer origin text =>
    simp only [respond] at he
    split at he
    · rw [mem_singleton.1 he] at hid
      cases hid
    · cases he
  | fileAs _ _ _ | takeSMS _ _ | publishHub _ | newID =>
    exact absurd hallows (by cases phase <;> simp [Terms.Allows])
  | resolve _ _ | isNew _ | claims _ _ _ | addFragment _ _ | declaration _ _ =>
    exact absurd he (by simp [respond])

theorem insert_emits {m : Message} (hid : m.id = w.messageID)
    (htakes : (Effect.insert m).takesPlace cfg g c (w.letter cfg).tenant w.device)
    (hcourse : astray (g.resolvers replica) cfg.registry c.failures w.url w.device = none) :
    ∃ e ∈ (respond cfg replica g c (.file w.device (authTenant w.url) (.insert m))).emits,
      e.keeps (w.letter cfg) := by
  have htenant :
      (g.lookup cfg replica c w.device (authTenant w.url)).1 = (w.letter cfg).tenant := by
    rw [Store.lookup_tenant, hcourse]
    rfl
  refine ⟨.filed (w.letter cfg).tenant w.device (.insert m) c.failures.now, ?_, ?_⟩
  · refine Store.mem_file.2 ⟨?_, by rw [htenant]⟩
    exact htakes
  · simp [Entry.keeps, Entry.tenant, Entry.messageID, hid, Terms.letter]

theorem Terms.Allows.at_start (h : w.Allows phase (.isNew key)) : phase = .start ∧ key = w.key := by
  cases phase with
  | start => exact ⟨rfl, h⟩
  | fresh | repeated | filed => exact h.elim

theorem Phase.next_past (hallows : w.Allows phase op) (hpast : phase = .fresh ∨ phase = .filed)
    (answer : op.Answer) : phase.next op answer = .fresh ∨ phase.next op answer = .filed := by
  cases op with
  | isNew key =>
    obtain ⟨rfl, -⟩ := hallows.at_start
    obtain hphase | hphase := hpast <;> cases hphase
  | file id auth effect =>
    cases effect with
    | insert m => exact .inr rfl
    | _ => exact hpast
  | _ => exact hpast

structure Handling.Honest (cfg : Config) (g : Ledger) (l : Handling) : Prop where
  follows : l.rest.Follows l.terms.conduct Answer.Suits l.phase
  kept : l.phase = .filed ∨ l.phase = .repeated → g.kept (l.terms.letter cfg) = true

/-- Every entry that keeps a message keeps it under the message's own id. -/
def Ledger.Labelled (g : Ledger) : Prop :=
  ∀ p ∈ g.log, ∀ id, p.2.messageID = some id → id = p.1.messageID

def Handling.Passed (l : Handling) (key : String) : Prop :=
  l.terms.key = key ∧ (l.phase = .fresh ∨ l.phase = .filed)

/-- The state of the deliveries: every mark of the filter is somebody's who passed it, and
every entry of the log is of a message that was delivered. -/
structure Answerable (cfg : Config) (s : System Ledger Handling) : Prop where
  handled : Inv Ledger.Labelled (Handling.Honest cfg) (fun l m => l.terms.Agree cfg m.terms) s
  marks : Attended (fun g key => (g.store.seen key).isSome) Handling.Passed s
  records : Attended (fun g q => ∃ e, (q, e) ∈ g.log) (fun l q => l.terms.letter cfg = q) s

theorem Terms.Agree.symm {v : Terms} (h : w.Agree cfg v) : v.Agree cfg w :=
  ⟨fun hkey => (h.1 hkey.symm).symm, fun hdevice hid => (h.2 hdevice.symm hid.symm).symm⟩

instance : Std.Symm fun l m : Handling => l.terms.Agree cfg m.terms :=
  ⟨fun _ _ => Terms.Agree.symm⟩

variable {l : Handling} {s : System Ledger Handling}

theorem Answerable.agree (h : Answerable cfg s) {m : Handling} (hl : l ∈ s.calls)
    (hm : m ∈ s.calls) : l.terms.Agree cfg m.terms := by
  have hself : ∀ l ∈ s.calls, l.terms.Agree cfg l.terms := fun _ _ => ⟨fun _ => rfl, fun _ _ => rfl⟩
  exact h.handled.between.forall_of_forall hself hl hm

theorem Answerable.kept_of_marked (h : Answerable cfg s) (hl : l ∈ s.calls)
    (hsecured : l.Secured cfg s c (.isNew l.terms.key))
    (hmarked : (s.shared.store.isNew cfg c l.terms.key).1 = false) :
    s.shared.kept (l.terms.letter cfg) := by
  have hlive : ∃ expiry, s.shared.store.seen l.terms.key = some expiry ∧
      c.failures.now < expiry := by
    unfold Store.isNew at hmarked
    split at hmarked
    case isTrue hany => simpa [Option.any_eq_true] using hany
    case isFalse => cases hmarked
  obtain ⟨expiry, hseen, hlt⟩ := hlive
  obtain ⟨m, hm, hkey, hphase⟩ := h.marks l.terms.key (by simp [hseen])
  have hkept : s.shared.kept (m.terms.letter cfg) := by
    obtain hfresh | hfiled := hphase
    · simp only [Handling.Secured, hseen, Option.all_some, or_eq_true, decide_eq_true_eq,
        all_eq_true] at hsecured
      obtain hle | hall := hsecured
      · omega
      · simpa [hkey, hfresh] using hall m hm
    · exact (h.handled.calls m hm).kept (.inl hfiled)
  rw [← (h.agree hm hl).1 hkey]
  exact hkept

theorem Ledger.kept_after {g : Ledger} {q : Letter} (h : g.kept q) (l : Handling)
    (c : Choice) (op : Op) : (g.after cfg l c op).kept q := by
  obtain ⟨e, hmem, hkeeps⟩ := Ledger.kept_iff.1 h
  exact Ledger.kept_iff.2 ⟨e, mem_append_left _ hmem, hkeeps⟩

section
variable (h : Answerable cfg s)
include h

theorem Answerable.kept_next (hl : l ∈ s.calls) (hallows : l.terms.Allows l.phase op)
    (hsecured : l.Secured cfg s c op) {phase : Phase}
    (hphase : phase = l.phase.next op (respond cfg l.replica s.shared.store c op).answer)
    (hend : phase = .filed ∨ phase = .repeated) :
    (s.shared.after cfg l c op).kept (l.terms.letter cfg) := by
  -- all but the filter and the insert leave the phase as it is
  have hstay (heq : phase = l.phase) : (s.shared.after cfg l c op).kept (l.terms.letter cfg) :=
    Ledger.kept_after ((h.handled.calls l hl).kept (heq ▸ hend)) l c op
  cases op with
  | isNew key =>
    obtain ⟨-, rfl⟩ := hallows.at_start
    apply Ledger.kept_after
    apply h.kept_of_marked hl hsecured
    cases hnew : (s.shared.store.isNew cfg c l.terms.key).1 with
    | false => rfl
    | true =>
      have hfresh : phase = .fresh := by
        rw [hphase]
        simp only [respond, hnew, Phase.next, cond_true]
      rcases hend with hend | hend <;> cases hend.symm.trans hfresh
  | file id auth effect =>
    cases effect with
    | insert m =>
      obtain ⟨rfl, rfl, hid, -⟩ := hallows
      rcases or_eq_true_iff.1 hsecured with hkept | hgoes
      · exact Ledger.kept_after hkept l c _
      · obtain ⟨htakes, hcourse⟩ := and_eq_true_iff.1 hgoes
        obtain ⟨e, he, hkeeps⟩ := insert_emits hid htakes (Option.isNone_iff_eq_none.1 hcourse)
        refine Ledger.kept_iff.2 ⟨e, mem_append_right _ ?_, hkeeps⟩
        exact mem_map_of_mem he
    | _ => exact hstay hphase
  | _ => exact hstay hphase

theorem Answerable.acted {i : Nat} (hi : s.calls[i]? = some l)
    {next : op.Answer → Handler Answer} (hrest : l.rest = .ask op next)
    (hsecured : l.Secured cfg s c op) {answer : op.Answer}
    (hanswer : answer = (respond cfg l.replica s.shared.store c op).answer) :
    Answerable cfg ⟨s.shared.after cfg l c op,
      s.calls.set i { l with phase := l.phase.next op answer, rest := next answer }⟩ := by
  have hl : l ∈ s.calls := mem_of_getElem? hi
  have hhonest := h.handled.calls l hl
  obtain ⟨hallows, hnext⟩ : l.terms.Allows l.phase op ∧ ∀ answer, Expected op answer →
      (next answer).Follows l.terms.conduct Answer.Suits (l.phase.next op answer) := by
    have hfollows := hhonest.follows
    rw [hrest] at hfollows
    exact hfollows
  have hlog {q : Letter} {e : Entry} (hmem : (q, e) ∈ (s.shared.after cfg l c op).log) :
      (q, e) ∈ s.shared.log ∨ q = l.terms.letter cfg ∧
        e ∈ (respond cfg l.replica s.shared.store c op).emits := by
    obtain hmem | hmem := mem_append.1 hmem
    · exact .inl hmem
    · obtain ⟨e', he', heq⟩ := mem_map.1 hmem
      cases heq
      exact .inr ⟨rfl, he'⟩
  refine ⟨?_, ?_, ?_⟩
  · apply h.handled.acted hi
    · rintro ⟨q, e⟩ hmem id hid
      obtain hbefore | ⟨rfl, he⟩ := hlog hmem
      · exact h.handled.shared _ hbefore id hid
      · exact respond_messageID hallows he hid
    · refine ⟨hnext answer (hanswer ▸ respond_expected ..), fun hend => ?_⟩
      exact h.kept_next hl hallows hsecured (by rw [hanswer]) hend
    · intro m _ hm hagree
      exact ⟨⟨hm.follows, fun hend => Ledger.kept_after (hm.kept hend) l c op⟩, hagree⟩
  · refine h.marks.acted hi fun key hkey => ?_
    rcases respond_seen hkey with ⟨rfl, hnew⟩ | hbefore
    · left
      refine ⟨hallows.at_start.2.symm, .inl ?_⟩
      rw [hanswer]
      simp only [respond, hnew, Phase.next, cond_true]
    · by_cases hpassed : l.Passed key
      · exact .inl ⟨hpassed.1, Phase.next_past hallows hpassed.2 answer⟩
      · exact .inr ⟨hbefore, hpassed⟩
  · refine h.records.acted hi fun q hq => ?_
    by_cases hq' : l.terms.letter cfg = q
    · exact .inl hq'
    · obtain ⟨e, hmem⟩ := hq
      obtain hbefore | ⟨rfl, -⟩ := hlog hmem
      · exact .inr ⟨⟨e, hbefore⟩, hq'⟩
      · exact absurd rfl hq'

theorem Answerable.begun {b : Arriving} (hagree : secured cfg s (.start b)) :
    Answerable cfg ⟨s.shared, s.calls ++ [⟨b.replica, b.message.terms cfg.codecs b.url, .start,
      b.message.handle cfg.codecs b.url⟩]⟩ where
  handled := by
    refine h.handled.begun h.handled.shared ⟨b.message.handle_follows cfg.codecs b.url, ?_⟩ ?_
    · rintro (hphase | hphase) <;> cases hphase
    · intro m hm hhonest
      exact ⟨hhonest, of_decide_eq_true (all_eq_true.1 hagree m hm)⟩
  marks := h.marks.begun fun _ => .inr
  records := h.records.begun fun _ => .inr

theorem Answerable.step {t : System Ledger Handling} {e : Event Arriving Choice}
    (hsecured : secured cfg s e) (hstep : Interleaving.step (handlings cfg) s e = some t) :
    Answerable cfg t := by
  obtain ⟨b, g, l, hstart⟩ | ⟨i, c, l, g, l', hi, hperform⟩ := step_cases hstep
  · cases hstart
    exact h.begun hsecured
  · simp only [handlings] at hperform
    simp only [secured, hi] at hsecured
    cases hrest : l.rest with
    | done answer => simp [hrest] at hperform
    | ask op next =>
      simp only [hrest, Option.some.injEq, Prod.mk.injEq] at hperform hsecured
      obtain ⟨rfl, rfl⟩ := hperform
      exact h.acted hi hrest hsecured rfl

end

theorem Answerable.unmarked (g : Store) : Answerable cfg (unmarked g) := by
  refine ⟨.nil fun p hp => ?_, fun key hkey => ?_, fun q hq => ?_⟩
  · cases hp
  · cases hkey
  · obtain ⟨e, he⟩ := hq
    cases he

/-- Whoever is answered `ok` or `duplicate` has had its message kept. -/
theorem Answerable.answered (h : Answerable cfg s) (hl : l ∈ s.calls) {answer : Answer}
    (hdone : l.rest = .done answer) (hanswer : answer = .ok ∨ answer = .duplicate) :
    s.shared.kept (l.terms.letter cfg) := by
  have hhonest := h.handled.calls l hl
  have hsuits : answer.Suits l.phase := by
    have hfollows := hhonest.follows
    rw [hdone] at hfollows
    exact hfollows
  obtain rfl | rfl := hanswer
  · exact hhonest.kept (.inl hsuits)
  · exact hhonest.kept (.inr hsuits)

theorem Answerable.payload_unique (h : Answerable cfg s) {p q : Letter × Entry}
    (hp : p ∈ s.shared.log) (hq : q ∈ s.shared.log) (hdevice : p.1.device = q.1.device)
    (hpid : p.2.messageID = some id) (hqid : q.2.messageID = some id) :
    p.1.data = q.1.data := by
  obtain ⟨l, hl, hpl⟩ := h.records p.1 ⟨p.2, hp⟩
  obtain ⟨m, hm, hqm⟩ := h.records q.1 ⟨q.2, hq⟩
  have hids : p.1.messageID = q.1.messageID :=
    (h.handled.shared p hp id hpid).symm.trans (h.handled.shared q hq id hqid)
  rw [← hpl, ← hqm] at hdevice hids ⊢
  exact (h.agree hl hm).2 hdevice hids

/-- In every run whose steps are all secured, a delivery that has been answered `ok` or `duplicate`
has had its message stored for its tenant or published on `mo/decoded`, and no two
payloads of a modem are kept under one id. -/
theorem answered_kept {cfg : Config} {g : Store} {s : System Ledger Handling}
    (h : Reaches (step (handlings cfg)) (fun s e => secured cfg s e = true) (unmarked g) s) :
    (∀ l ∈ s.calls, ∀ answer, l.rest = .done answer → answer = .ok ∨ answer = .duplicate →
        s.shared.kept (l.terms.letter cfg) = true) ∧
      ∀ p ∈ s.shared.log, ∀ q ∈ s.shared.log, p.1.device = q.1.device →
        ∀ id, p.2.messageID = some id → q.2.messageID = some id → p.1.data = q.1.data := by
  have hanswerable : Answerable cfg s :=
    h.invariant (Answerable.unmarked g) fun _ _ _ hs hok hstep => hs.step hok hstep
  exact ⟨fun _ hl _ hdone hanswer => hanswerable.answered hl hdone hanswer,
    fun _ hp _ hq hdevice _ hpid hqid => hanswerable.payload_unique hp hq hdevice hpid hqid⟩

/-- The clock stands still; everything goes through, or publications and the store fail. -/
def still (fails : Bool) : Choice := ⟨⟨0, false, false⟩, fails, fails, ""⟩

/-- A delivery at the platform's URL and the ten operations of its handling. -/
def handledAt (i replica : Nat) (f : RockblockForm) (fails : Bool) : List (Event Arriving Choice) :=
  .start ⟨replica, "", .rockblock f⟩ :: List.replicate 10 (.act i (still fails))

/-- A modem whose sequence number has come round again. -/
def wrapped : RockblockForm := { hello with data := "other" }

def answers (s : System Ledger Handling) : List (Option Answer) :=
  s.calls.map fun l => match l.rest with
    | .done answer => some answer
    | .ask _ _ => none

theorem exists_answered {answer : Answer} (h : some answer ∈ answers s) :
    ∃ l ∈ s.calls, l.rest = .done answer := by
  obtain ⟨l, hl, hanswer⟩ := mem_map.1 h
  refine ⟨l, hl, ?_⟩
  cases hrest : l.rest with
  | done answer' =>
    rw [hrest] at hanswer
    exact congrArg Proc.done (Option.some.inj hanswer)
  | ask op next => simp [hrest] at hanswer

/-- A delivery and its repeat on another replica, answered `ok` and `duplicate`. -/
theorem answered_kept_repeat : ∃ s, Reaches (step (handlings oneModem))
      (fun s e => secured oneModem s e = true) (unmarked emptyStore) s ∧
    (∃ l ∈ s.calls, l.rest = .done .ok ∧ s.shared.kept (l.terms.letter oneModem) = true) ∧
    ∃ l ∈ s.calls, l.rest = .done .duplicate ∧
      s.shared.kept (l.terms.letter oneModem) = true := by
  have hreplay : (replay (guarded (step (handlings oneModem)) (secured oneModem))
      (unmarked emptyStore) (handledAt 0 0 hello false ++ (handledAt 1 1 hello false).take 3)).map
      (fun s => answers s) = some [some .ok, some .duplicate] := by decide +kernel
  obtain ⟨s, hs, hanswers⟩ := exists_reaches_of_guarded hreplay
  obtain ⟨l, hl, hok⟩ := @exists_answered s .ok (by simp [hanswers])
  obtain ⟨m, hm, hduplicate⟩ := @exists_answered s .duplicate (by simp [hanswers])
  exact ⟨s, hs, ⟨l, hl, hok, (answered_kept hs).1 l hl .ok hok (.inl rfl)⟩,
    m, hm, hduplicate, (answered_kept hs).1 m hm .duplicate hduplicate (.inr rfl)⟩

/-- A message that is no fragment and no frame is answered `ok` although neither its
publication nor its insert went through; and two payloads of one modem are kept under one id. -/
theorem answered_not_kept : ((Satellite.rockblock hello).payload oneModem.codecs).map
        (fun raw => (isFragment raw, isBridgeSatUplink raw)) = some (false, false) ∧
      (∃ s, Reaches (step (handlings oneModem)) (fun _ _ => True) (unmarked emptyStore) s ∧
        ∃ l ∈ s.calls, l.rest = .done .ok ∧ s.shared.kept (l.terms.letter oneModem) = false) ∧
      ∃ s, Reaches (step (handlings oneModem)) (fun _ _ => True) (unmarked emptyStore) s ∧
        ∃ p ∈ s.shared.log, ∃ q ∈ s.shared.log, p.1.device = q.1.device ∧
          p.2.messageID = some "mo-3001-7" ∧ q.2.messageID = some "mo-3001-7" ∧
            p.1.data ≠ q.1.data := by
  refine ⟨by decide +kernel, ?_, ?_⟩
  · have hreplay : (replay (step (handlings oneModem)) (unmarked emptyStore)
        (handledAt 0 0 hello true)).map
        (fun s => (answers s, s.calls.map fun l => s.shared.kept (l.terms.letter oneModem))) =
          some ([some .ok], [false]) := by decide +kernel
    obtain ⟨s, hs, hview⟩ := exists_reaches_of_replay hreplay
    obtain ⟨hanswers, hkept⟩ := Prod.mk.inj hview
    obtain ⟨l, hl, hok⟩ := @exists_answered s .ok (by simp [hanswers])
    have hmem : s.shared.kept (l.terms.letter oneModem) ∈ [false] := hkept ▸ mem_map_of_mem
        (f := fun l : Handling => s.shared.kept (l.terms.letter oneModem)) hl
    exact ⟨s, hs, l, hl, hok, mem_singleton.1 hmem⟩
  · exact exists_reaches_of_decide (handledAt 0 0 hello false ++ handledAt 1 0 wrapped false)
      (by decide +kernel)

end MeshsatHub.Inbound
