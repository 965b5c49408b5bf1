import MeshsatHub.Foundations.Interleaving

/-!
# Chats to crews

`Send` stores a message as sent and hands it to the kit, over MQTT or as a frame that is claimed
first; when that reported an error it writes `failed`, whatever is stored. A repeat finds the row
and is answered from its own request. A call starts with everything decided that `Send` decides
before it stores. Rows are not deleted. The checks before a recording pass, and none fails.
-/

namespace MeshsatHub.Takchat
open Runs List Interleaving

inductive Status where
  | sent
  | queued
  | delivered
  | failed
  | undelivered
  deriving DecidableEq

inductive Bearer where
  | mqtt
  | sbd
  | imt
  | sms
  deriving DecidableEq

/-- What a call would store; the bearer is the one it has chosen. -/
structure Draft where
  text : String
  crewUID : String
  bearer : Bearer
  deriving DecidableEq

/-- The row under the message's id, the bearers it was claimed for, and what was handed over. -/
structure Message where
  row : Option (Draft × Status)
  claimed : List Bearer
  handed : List Draft

/-- `answered` is an answer without an error, whose status is `sent`. -/
inductive SendCall where
  | saving (d : Draft)
  | claiming (d : Draft)
  | handing (d : Draft)
  | failing (d : Draft)
  | answered (d : Draft)
  | refused
  deriving DecidableEq

def Message.perform (g : Message) : SendCall → Outcome → Option (Message × SendCall)
  | .saving d, o =>
    match g.row with
    | some _ => if o.ok then some (g, .answered d) else some (g, .refused)
    | none =>
      let g' := if o.effective then { g with row := some (d, .sent) } else g
      if !o.ok then some (g', .refused)
      else if d.bearer = .mqtt then some (g', .handing d)
      else some (g', .claiming d)
  | .claiming d, o =>
    let g' := if o.effective then { g with claimed := d.bearer :: g.claimed } else g
    if !o.ok then some (g', .failing d)
    else if d.bearer ∈ g.claimed then some (g', .answered d)
    else some (g', .handing d)
  | .handing d, o =>
    let g' := if o.effective then { g with handed := g.handed ++ [d] } else g
    if o.ok then some (g', .answered d) else some (g', .failing d)
  | .failing _, o =>
    some (if o.effective then { g with row := g.row.map fun r => (r.1, .failed) } else g, .refused)
  | _, _ => none

def send : Program Message SendCall Draft Outcome :=
  ⟨fun g d => some (g, .saving d), Message.perform⟩

def SendCall.busy : SendCall → Bool
  | .claiming _ | .handing _ | .failing _ => true
  | _ => false

/-- A call that finds the message stored has the content of one that was answered before. -/
def repeats (s : System Message SendCall) : Event Draft Outcome → Bool
  | .act i _ =>
    match s.calls[i]?, s.shared.row with
    | some (.saving d), some _ => .answered d ∈ s.calls
    | _, _ => true
  | _ => true

structure Message.Sound (g : Message) : Prop where
  unused : g.row = none → g.handed = [] ∧ g.claimed = []
  once : g.handed.length ≤ 1

def Message.Knows (strict : Bool) (g : Message) : SendCall → Prop
  | .claiming d => g.row = some (d, .sent) ∧ g.handed = [] ∧ g.claimed = []
  | .handing d => g.row = some (d, .sent) ∧ g.handed = []
  | .failing d => g.row = some (d, .sent)
  | .answered d => strict → g.handed = [d] ∧ g.row = some (d, .sent)
  | _ => True

/-- The call relies on nothing; an answer does only where repeats are `strict`. -/
def SendCall.quiet (strict : Bool) : SendCall → Bool
  | .saving _ | .refused => true
  | .answered _ => !strict
  | _ => false

/-- Beside a call that is busy with the message the others have nothing to rely on. -/
def Apart (strict : Bool) (l m : SendCall) : Prop :=
  (l.busy → m.quiet strict) ∧ (m.busy → l.quiet strict)

variable {strict : Bool}

instance : Std.Symm (Apart strict) := ⟨fun _ _ h => ⟨h.2, h.1⟩⟩

abbrev SendInv (strict : Bool) := Inv Message.Sound (Message.Knows strict) (Apart strict)

section
variable {g : Message} {l m : SendCall} {s t : System Message SendCall}

theorem knows_apart_of_quiet (h : m.quiet strict) : g.Knows strict m ∧ Apart strict l m := by
  cases m <;> simp_all [SendCall.quiet, Message.Knows, Apart, SendCall.busy]

theorem quiet_of_row_eq_none (hrow : g.row = none) (h : g.Knows strict m) : m.quiet strict := by
  cases m <;> simp_all [Message.Knows, SendCall.quiet]

theorem SendInv.not_busy {d : Draft} (h : SendInv true s) (hd : .answered d ∈ s.calls)
    (hm : m ∈ s.calls) : m.busy = false := by
  obtain ⟨i, hi⟩ := mem_iff_getElem?.1 hd
  obtain ⟨j, hj⟩ := mem_iff_getElem?.1 hm
  by_cases hij : i = j
  · subst hij
    cases hi.symm.trans hj
    rfl
  · exact Bool.eq_false_iff.2 fun hbusy => nomatch (h.between_calls hi hj hij).2 hbusy

theorem SendInv.step {e : Event Draft Outcome} (h : SendInv strict s) (hok : strict → repeats s e)
    (hstep : Interleaving.step send s e = some t) : SendInv strict t := by
  obtain ⟨d, g, l, ⟨⟩⟩ | ⟨i, o, l, g, l', hi, hact⟩ := step_cases hstep
  · exact h.begun h.shared trivial fun m _ hm => ⟨hm, fun _ => rfl, nofun⟩
  · have hl := h.call hi
    have hothers (hbusy : l.busy) (m : SendCall) (_ : m ∈ s.calls) (_ : s.shared.Knows strict m)
        (hb : Apart strict l m) : g.Knows strict m ∧ Apart strict l' m :=
      knows_apart_of_quiet (hb.1 hbusy)
    cases l with
    | saving d =>
      cases hrow : s.shared.row with
      | none =>
        obtain ⟨hhanded, hclaimed⟩ := h.shared.unused hrow
        by_cases hmqtt : d.bearer = .mqtt <;> cases o <;>
          simp [send, Message.perform, hrow, hmqtt, Outcome.ok, Outcome.effective] at hact <;>
          obtain ⟨rfl, rfl⟩ := hact <;>
          exact h.acted hi ⟨by simp [hrow, hhanded, hclaimed], h.shared.once⟩
            (by simp [Message.Knows, hhanded, hclaimed])
            fun m _ hm _ => knows_apart_of_quiet (quiet_of_row_eq_none hrow hm)
      | some r =>
        have hrepeat (hs : strict) : r = (d, .sent) ∧ s.shared.handed = [d] ∧
            ∀ m ∈ s.calls, m.busy = false := by
          subst hs
          have hd : .answered d ∈ s.calls := by simpa [repeats, hi, hrow] using hok rfl
          obtain ⟨hhanded, hstored⟩ := h.calls _ hd rfl
          exact ⟨Option.some.inj (hrow.symm.trans hstored), hhanded, fun m => h.not_busy hd⟩
        cases o <;> simp [send, Message.perform, hrow, Outcome.ok] at hact <;>
          obtain ⟨rfl, rfl⟩ := hact <;>
          refine h.acted hi h.shared ?_ fun m hmem hm _ => ⟨hm, ?_⟩ <;>
          cases strict <;> simp_all [Message.Knows, Apart, SendCall.busy, SendCall.quiet]
    | claiming d | handing d | failing d =>
      simp only [Message.Knows] at hl
      cases o <;> simp [send, Message.perform, hl, Outcome.ok, Outcome.effective] at hact <;>
        obtain ⟨rfl, rfl⟩ := hact <;>
        exact h.acted hi ⟨by simp [hl], by simp [hl, h.shared.once]⟩
          (by simp [Message.Knows, hl]) (hothers rfl)
    | answered | refused => cases hact

theorem sendInv_of_reaches {ok : System Message SendCall → Event Draft Outcome → Prop}
    (hok : ∀ s e, ok s e → strict → repeats s e)
    (h : Reaches (step send) ok ⟨⟨none, [], []⟩, []⟩ s) : SendInv strict s :=
  h.invariant (.nil ⟨fun _ => ⟨rfl, rfl⟩, Nat.zero_le _⟩)
    fun s e _ h hrun hstep => h.step (hok s e hrun) hstep

/-- In every run the message is handed over at most once. Whoever is answered that it was sent has
it handed over and stored as answered, if every repeat comes after a call with its content was. -/
theorem sent_handed_once (s : System Message SendCall) :
    (Reaches (step send) (fun _ _ => True) ⟨⟨none, [], []⟩, []⟩ s →
      s.shared.handed.length ≤ 1) ∧
    (Reaches (step send) (fun s e => repeats s e) ⟨⟨none, [], []⟩, []⟩ s →
      ∀ d, .answered d ∈ s.calls → s.shared.handed = [d] ∧ s.shared.row = some (d, .sent)) := by
  constructor
  · intro h
    have hinv : SendInv false s :=
      sendInv_of_reaches (fun _ _ _ hs => absurd hs Bool.false_ne_true) h
    exact hinv.shared.once
  · intro h d hd
    have hinv : SendInv true s := sendInv_of_reaches (fun _ _ hok _ => hok) h
    exact hinv.calls _ hd rfl

end

def hello (bearer : Bearer) : Draft := ⟨"hello", "meshsat-1", bearer⟩

/-- A message by satellite and its repeat; and two calls at once, the second by SMS. -/
theorem sent_handed_once_repeat :
    (∃ s, Reaches (step send) (fun s e => repeats s e) ⟨⟨none, [], []⟩, []⟩ s ∧
      s.calls = [.answered (hello .sbd), .answered (hello .sbd)] ∧
      ∀ d, .answered d ∈ s.calls → s.shared.handed = [d] ∧ s.shared.row = some (d, .sent)) ∧
    ∃ s, Reaches (step send) (fun _ _ => True) ⟨⟨none, [], []⟩, []⟩ s ∧
      s.calls = [.answered (hello .sbd), .answered (hello .sms)] ∧ s.shared.handed.length ≤ 1 :=
  ⟨exists_reaches_and_of_decide [.start (hello .sbd), .act 0 .done, .act 0 .done, .act 0 .done,
      .start (hello .sbd), .act 1 .done] (by decide +kernel)
      fun s => (sent_handed_once s).2,
    exists_reaches_and_of_replay [.start (hello .sbd), .start (hello .sms), .act 0 .done,
      .act 1 .done, .act 0 .done, .act 0 .done] (by decide +kernel)
      fun s => (sent_handed_once s).1⟩

/-- The bus refuses the message; a repeat, by now over SMS, is answered that it was sent. -/
theorem sent_not_handed : ∃ s, Reaches (step send) (fun _ _ => True) ⟨⟨none, [], []⟩, []⟩ s ∧
      s.calls = [.refused, .answered (hello .sms)] ∧ s.shared.handed = [] ∧
      s.shared.row = some (hello .mqtt, .failed) :=
  exists_reaches_of_decide [.start (hello .mqtt), .act 0 .done, .act 0 .lost, .act 0 .done,
    .start (hello .sms), .act 1 .done] (by decide +kernel)

/-- The words in `takChatFinal`. -/
def Status.isFinal : Status → Bool
  | .delivered | .failed | .undelivered => true
  | .sent | .queued => false

/-- `SetTAKChatMessageOutcome`, on what is stored. -/
def setOutcome (stored word : Status) : Status :=
  if word = .queued ∧ stored.isFinal then stored else word

/-- The message, whether `Send` has still to write that the handover failed, and the reports that
each replica has still to record, oldest first. -/
structure Chat where
  status : Status
  failing : Bool
  replicas : List (List Status)

/-- A report that is recorded `again` is the replica's next one once more. -/
inductive Act where
  | fail
  | record (i : Nat) (again : Bool)

def Chat.step (s : Chat) : Act → Option Chat
  | .fail => if s.failing then some { s with status := .failed, failing := false } else none
  | .record i again =>
    match s.replicas[i]? with
    | some (word :: rest) =>
      some { s with
        status := setOutcome s.status word
        replicas := s.replicas.set i (if again then word :: rest else rest) }
    | _ => none

variable (reports : List Status)

/-- The reports other than `queued`. -/
def said : List Status := reports.filter (· ≠ .queued)

def lastWord : Status := (said reports).getLast?.getD .queued

/-- Some replica has still to record a word that is not `queued`. -/
def Chat.awaits (s : Chat) : Bool := s.replicas.any (said · ≠ [])

def Chat.spares (s : Chat) : Act → Bool
  | .fail => s.awaits
  | _ => true

structure Chat.Sound (reports : List Status) (s : Chat) : Prop where
  listening : s.replicas ≠ []
  behind : ∀ rest ∈ s.replicas, rest <:+ reports
  word : s.awaits ∨ s.status = lastWord reports ∨
    s.status = .sent ∧ ∀ rest ∈ s.replicas, rest = reports

variable {reports rest : List Status} {word : Status} {s : Chat}

theorem said_cons_queued : said (.queued :: rest) = said rest := filter_cons_of_neg (by simp)

theorem lastWord_of_suffix (h : word :: rest <:+ reports) (hword : word ≠ .queued)
    (hrest : said rest = []) : lastWord reports = word := by
  obtain ⟨front, rfl⟩ := h
  rw [said] at hrest
  rw [lastWord, said, filter_append, filter_cons_of_pos (by simpa using hword), hrest,
    getLast?_concat]
  rfl

/-- A late `queued` leaves the last word alone. -/
theorem setOutcome_lastWord (h : .sent ∉ reports) :
    setOutcome (lastWord reports) .queued = lastWord reports := by
  have hlast : lastWord reports ≠ .sent := by
    unfold lastWord
    cases hword : (said reports).getLast? with
    | none => exact nofun
    | some word =>
      rintro rfl
      exact h (mem_of_mem_filter (mem_of_getLast? hword))
  cases hword : lastWord reports with
  | sent => exact absurd hword hlast
  | _ => rfl

theorem Chat.Sound.record {i : Nat} {again : Bool} (h : s.Sound reports) (hsent : .sent ∉ reports)
    (hi : s.replicas[i]? = some (word :: rest)) :
    Sound reports { s with
      status := setOutcome s.status word
      replicas := s.replicas.set i (if again then word :: rest else rest) } := by
  obtain ⟨front, back, hs, hset, -⟩ := exists_split hi (if again then word :: rest else rest)
  have hsuffix := h.behind (word :: rest) (by simp [hs])
  refine ⟨by simp [h.listening], ?_, ?_⟩
  · intro r hr
    obtain hr | rfl := mem_or_eq_of_mem_set hr
    · exact h.behind r hr
    · split
      · exact hsuffix
      · exact (suffix_cons word rest).trans hsuffix
  · by_cases hrest : said rest = []
    · by_cases hq : word = .queued
      · subst hq
        obtain hawaits | hword | ⟨hword, hall⟩ := h.word
        · refine .inl ?_
          rw [Chat.awaits, hset]
          rw [Chat.awaits, hs] at hawaits
          cases again <;> simp_all [said_cons_queued]
        · exact .inr (.inl (hword ▸ setOutcome_lastWord hsent))
        · refine .inr (.inl ?_)
          have hreports : .queued :: rest = reports := hall _ (by simp [hs])
          rw [← hreports, lastWord, said_cons_queued, hrest, hword]
          rfl
      · refine .inr (.inl ?_)
        rw [lastWord_of_suffix hsuffix hq hrest]
        exact if_neg fun hboth => hq hboth.1
    · refine .inl ?_
      rw [Chat.awaits, hset]
      cases again <;> simp_all [said]

/-- The kit's last word is stored once every replica has recorded all reports, if the Hub's own
failure was written while some replica had a word other than `queued` to record. -/
theorem kit_word_stands {n : Nat} {failing : Bool} (hn : n ≠ 0) (hreports : reports ≠ [])
    (hsent : .sent ∉ reports) (h : Reaches Chat.step (fun s e => s.spares e)
      ⟨.sent, failing, replicate n reports⟩ s)
    (hdone : ∀ rest ∈ s.replicas, rest = []) : s.status = lastWord reports := by
  have hsound : s.Sound reports := by
    refine h.invariant ?_ fun s e t h hspares hstep => ?_
    · refine ⟨by simp [hn], ?_, .inr (.inr ⟨rfl, ?_⟩)⟩ <;> simp +contextual
    · revert hstep
      fun_cases Chat.step s e with rintro ⟨⟩
      | case1 => exact { h with word := .inl hspares }
      | case3 i again word rest hi => exact h.record hsent hi
  obtain hawaits | hword | ⟨-, hall⟩ := hsound.word
  · obtain ⟨rest, hrest, hany⟩ := any_eq_true.1 hawaits
    rw [hdone rest hrest] at hany
    cases hany
  · exact hword
  · obtain ⟨rest, hrest⟩ := exists_mem_of_ne_nil _ hsound.listening
    exact absurd ((hall rest hrest).symm.trans (hdone rest hrest)) hreports

/-- Two replicas record what the kit reported although the bus had reported an error. -/
theorem kit_word_stands_delivered : ∃ s, Reaches Chat.step (fun s e => s.spares e)
      ⟨.sent, true, replicate 2 [.queued, .delivered]⟩ s ∧
    (s.failing = false ∧ ∀ rest ∈ s.replicas, rest = []) ∧
      ((∀ rest ∈ s.replicas, rest = []) → s.status = .delivered) :=
  exists_reaches_and_of_decide [.record 0 false, .record 0 false, .fail, .record 1 false,
    .record 1 true, .record 1 false] (by decide +kernel) fun _ h =>
      kit_word_stands (Nat.succ_ne_zero 1) (cons_ne_nil _ _) (by decide) h

/-- The Hub's failure replaces a kit's `delivered`, and keeps a kit's only report out. -/
theorem kit_word_replaced :
    (∃ s, Reaches Chat.step (fun _ _ => True) ⟨.sent, true, [[.delivered]]⟩ s ∧
      s.failing = false ∧ s.replicas = [[]] ∧ s.status = .failed) ∧
    ∃ s, Reaches Chat.step (fun _ _ => True) ⟨.sent, true, [[.queued]]⟩ s ∧
      s.failing = false ∧ s.replicas = [[]] ∧ s.status = .failed :=
  ⟨exists_reaches_of_decide [.record 0 false, .fail] (by decide +kernel),
    exists_reaches_of_decide [.fail, .record 0 false] (by decide +kernel)⟩

end MeshsatHub.Takchat
