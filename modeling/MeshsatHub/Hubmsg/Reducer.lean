import Mathlib

/-!
# The evidence of an operation and what it adds up to

The state of an operation is derived from its events, in any order and with any duplicates. An event
id is made by a hash that is a parameter on the fields it covers.
-/

namespace MeshsatHub.Hubmsg

inductive EventClass where
  | completed
  | failed
  | expired
  | forwarded
  | unknown
  | accepted
  | pending
  deriving DecidableEq

/-- How the evidence came about. -/
inductive Kind where
  | hubBrokerPuback
  | hubForwarded
  | recipientAppStored
  | recipientRefused
  | hubRefused
  | hubExpired
  | hubUnknown
  | recipientBusy
  deriving DecidableEq

/-- Who vouches for an event. -/
inductive Authority where
  | local
  | hub
  | recipient
  deriving DecidableEq

/-- Where a party took an event from. -/
inductive Source where
  | local
  | statusTopic
  deriving DecidableEq

abbrev UUID := Vector UInt8 16

structure Event where
  source : Option Source
  opID : String
  mid : String
  recipient : String
  eventID : UUID
  eventClass : EventClass
  kind : Kind
  reason : String
  authority : Authority

structure Operation where
  opID : String
  mid : String
  recipient : String

structure Projection where
  state : EventClass
  conflict : Bool
  failedReasons : List String
  evidence : List UUID
  rejected : List UUID

def allowedKinds : List (Kind × EventClass × Authority) :=
  [(.hubBrokerPuback, .accepted, .local), (.hubForwarded, .forwarded, .hub),
    (.recipientAppStored, .completed, .recipient), (.recipientRefused, .failed, .recipient),
    (.recipientRefused, .expired, .recipient), (.hubRefused, .failed, .hub),
    (.hubExpired, .expired, .hub), (.hubUnknown, .unknown, .hub),
    (.recipientBusy, .unknown, .recipient)]

/-- Where evidence of each authority may come from. -/
def sourceOf : Authority → Source
  | .local => .local
  | .hub => .statusTopic
  | .recipient => .statusTopic

/-- The strength of the classes, strongest first. -/
def projectionOrder : List EventClass :=
  [.completed, .failed, .expired, .forwarded, .unknown, .accepted, .pending]

def validV7 (id : UUID) : Bool := id[8] >>> 6 = 2 && id[6] >>> 4 = 7

def valid (op : Operation) (e : Event) : Bool :=
  e.opID = op.opID && e.mid = op.mid && e.recipient = op.recipient &&
    (e.kind, e.eventClass, e.authority) ∈ allowedKinds &&
    some (sourceOf e.authority) = e.source && validV7 e.eventID

def held (op : Operation) (events : List Event) : List Event :=
  events.foldl (fun held e =>
    if valid op e && !held.any (·.eventID = e.eventID) then held ++ [e] else held) []

def strongest (classes : List EventClass) : EventClass :=
  (projectionOrder.find? (· ∈ classes)).getD .pending

def sortIDs (ids : List UUID) : List UUID := ids.insertionSort fun a b => a.toList ≤ b.toList

/-- The strongest class among the valid events, and a conflict where both `completed` and `failed`
are among them. -/
def reduce (op : Operation) (events : List Event) : Projection :=
  let held := held op events
  let classes := held.map Event.eventClass
  let rejected := (events.filter fun e => !valid op e).map Event.eventID
  { state := strongest classes
    conflict := .completed ∈ classes && .failed ∈ classes
    failedReasons :=
      ((held.filter fun e =>
        (e.eventClass = .failed || e.eventClass = .expired) && e.reason ≠ "").map
          Event.reason).dedup.insertionSort (· ≤ ·)
    evidence := sortIDs (held.map Event.eventID)
    rejected := sortIDs (rejected.filter fun id => !held.any (·.eventID = id)).dedup }

variable {op : Operation}
variable {e : Event} {events : List Event}

theorem mem_held_snoc {e' : Event} : e' ∈ held op (events ++ [e]) ↔ e' ∈ held op events ∨
        e' = e ∧ valid op e ∧ ∀ h ∈ held op events, h.eventID ≠ e.eventID := by
  have hstep : held op (events ++ [e]) =
      if valid op e && !(held op events).any (·.eventID = e.eventID) then held op events ++ [e]
      else held op events := by
    unfold held
    rw [List.foldl_append]
    rfl
  have hguard : (valid op e && !(held op events).any (·.eventID = e.eventID)) ↔
      valid op e ∧ ∀ h ∈ held op events, h.eventID ≠ e.eventID := by
    simp
  rw [hstep]
  split
  next hyes => rw [List.mem_append, List.mem_singleton, and_iff_left (hguard.1 hyes)]
  next hno =>
    rw [← hguard]
    exact ⟨.inl, fun h => h.resolve_right fun hright => hno hright.2⟩

theorem of_mem_held (h : e ∈ held op events) : e ∈ events ∧ valid op e := by
  induction events using List.reverseRecOn with
  | nil => exact absurd h List.not_mem_nil
  | append_singleton events e' ih =>
    obtain hold | ⟨rfl, hvalid, -⟩ := mem_held_snoc.1 h
    · exact ⟨List.mem_append_left _ (ih hold).1, (ih hold).2⟩
    · exact ⟨by simp, hvalid⟩

theorem exists_mem_held (he : e ∈ events) (hvalid : valid op e) :
    ∃ h ∈ held op events, h.eventID = e.eventID := by
  induction events using List.reverseRecOn with
  | nil => exact absurd he List.not_mem_nil
  | append_singleton events e' ih =>
    obtain hold | hnew := List.mem_append.1 he
    · obtain ⟨h, hh, hid⟩ := ih hold
      exact ⟨h, mem_held_snoc.2 (.inl hh), hid⟩
    · obtain rfl := List.mem_singleton.1 hnew
      by_cases hfresh : ∀ h ∈ held op events, h.eventID ≠ e.eventID
      · exact ⟨e, mem_held_snoc.2 (.inr ⟨rfl, hvalid, hfresh⟩), rfl⟩
      · push Not at hfresh
        obtain ⟨h, hh, hid⟩ := hfresh
        exact ⟨h, mem_held_snoc.2 (.inl hh), hid⟩

theorem mem_classes_iff
    (hids : ∀ e ∈ events, ∀ e' ∈ events, e.eventID = e'.eventID → e.eventClass = e'.eventClass)
    (c : EventClass) : c ∈ (held op events).map Event.eventClass ↔
      ∃ e ∈ events, valid op e ∧ e.eventClass = c := by
  rw [List.mem_map]
  constructor
  · rintro ⟨e, he, hc⟩
    exact ⟨e, (of_mem_held he).1, (of_mem_held he).2, hc⟩
  · rintro ⟨e, he, hvalid, hc⟩
    obtain ⟨h, hh, hid⟩ := exists_mem_held he hvalid
    exact ⟨h, hh, (hids h (of_mem_held hh).1 e he hid).trans hc⟩

/-- The place of a class, strongest first. -/
def rank (c : EventClass) : Nat := projectionOrder.idxOf c

variable {classes classes' : List EventClass}

theorem strongest_congr (h : ∀ c, c ∈ classes ↔ c ∈ classes') :
    strongest classes = strongest classes' := by
  unfold strongest
  simp only [h]

theorem idxOf_le_of_find? {α : Type*} [DecidableEq α] {p : α → Bool} {l : List α} {a c : α}
    (h : l.find? p = some a) (hc : p c) : l.idxOf a ≤ l.idxOf c := by
  induction l with
  | nil => cases h
  | cons x rest ih =>
    by_cases hx : p x
    · rw [List.find?_cons_of_pos hx] at h
      cases h
      rw [List.idxOf_cons_self]
      exact Nat.zero_le _
    · rw [List.find?_cons_of_neg hx] at h
      have hne : ∀ y, p y → x ≠ y := by
        rintro y hy rfl
        exact hx hy
      rw [List.idxOf_cons_ne _ (hne a (List.find?_some h)), List.idxOf_cons_ne _ (hne c hc)]
      exact Nat.succ_le_succ (ih h)

theorem rank_le_pending (c : EventClass) : rank c ≤ rank .pending := by
  cases c <;> decide

theorem rank_strongest_le_of_mem {c : EventClass} (h : c ∈ classes) :
    rank (strongest classes) ≤ rank c := by
  have hmem : c ∈ projectionOrder := by cases c <;> decide
  unfold strongest
  cases hfind : projectionOrder.find? (· ∈ classes) with
  | none => exact absurd (List.find?_eq_none.1 hfind c hmem) (by simpa using h)
  | some a => exact idxOf_le_of_find? hfind (by simpa using h)

theorem strongest_mem_or (classes : List EventClass) :
    strongest classes ∈ classes ∨ strongest classes = .pending := by
  unfold strongest
  cases hfind : projectionOrder.find? (· ∈ classes) with
  | none => exact .inr rfl
  | some a => exact .inl (by simpa using List.find?_some hfind)

theorem rank_strongest_le (h : classes ⊆ classes') :
    rank (strongest classes') ≤ rank (strongest classes) := by
  obtain hmem | hpending := strongest_mem_or classes
  · exact rank_strongest_le_of_mem (h hmem)
  · rw [hpending]
    exact rank_le_pending _

variable {classes : List EventClass}

section
variable (hids : ∀ e ∈ events, ∀ e' ∈ events, e.eventID = e'.eventID → e.eventClass = e'.eventClass)
  (hclasses : ∀ c, c ∈ classes ↔ ∃ e ∈ events, valid op e = true ∧ e.eventClass = c)
include hids hclasses

theorem reduce_state : (reduce op events).state = strongest classes := by
  refine strongest_congr fun c => ?_
  rw [mem_classes_iff hids, hclasses]

theorem reduce_conflict :
    (reduce op events).conflict ↔ .completed ∈ classes ∧ .failed ∈ classes := by
  simp only [reduce, Bool.and_eq_true, decide_eq_true_eq]
  rw [mem_classes_iff hids, mem_classes_iff hids, hclasses, hclasses]

end

end MeshsatHub.Hubmsg
