import MeshsatHub.Foundations.Runs
import MeshsatHub.Rnswire.Hdlc

/-!
# The path to a destination

Each announce carries a random blob that ends in the time of its emission, and the path keeps at
most `maxRandomBlobs` of them. `learn` is the part of `handleAnnounce` that decides whether an
announce takes the place of the path; as long as a path lives, only newer ones do (`Remembers`). An
announce has passed its signature check, and the destination is not the node's own.
-/

namespace MeshsatHub.Rns
open Rnswire Runs List Option

def maxRandomBlobs : Nat := 64

/-- The largest hop count of an announce. -/
def pathfinderM : Nat := 128

/-- How long a neighbour's path stands against an announce from a leaf. -/
def leafDisplaceGrace : Nat := 8 * 60 * 10 ^ 9

/-- What an announce says about a destination. -/
structure Announce where
  destHash : Bytes
  random : Bytes
  publicKey : Bytes
  appData : Bytes

/-- An announce as it is heard: through a transport node or not, after some hops. -/
structure Hearing where
  ann : Announce
  transportID : Option Bytes
  hops : Nat
  iface : String
  packetHash : Bytes
  pathResponse : Bool

structure PathEntry where
  destHash : Bytes
  timestamp : Nat
  nextHop : Bytes
  hops : Nat
  expires : Nat
  randomBlobs : List Bytes
  iface : String
  announce : Announce
  packetHash : Bytes
  unresponsive : Bool

def PathEntry.direct (e : PathEntry) : Bool := e.hops ≤ 1 || e.nextHop == e.destHash

def blobTimestamp (b : Bytes) : Nat :=
  if b.length < 10 then 0
  else ((b.drop 5).take 5).foldl (fun ts c => ts * 256 + c.toNat) 0

/-- The newest time of emission among the blobs of a path. -/
def PathEntry.emittedAt (e : PathEntry) : Nat :=
  e.randomBlobs.foldl (fun best b => if best < blobTimestamp b then blobTimestamp b else best) 0

/-- The scan of the blobs for an announce over more hops, which stops at a blob that is not
older than the announce. -/
def pathEmitted (emitted : Nat) : List Bytes → Nat → Nat
  | [], newest => newest
  | b :: rest, newest =>
    let newest := if newest < blobTimestamp b then blobTimestamp b else newest
    if emitted ≤ newest then newest else pathEmitted emitted rest newest

/-- Whether an announce is good enough for the path. -/
def shouldAdd (existing : Option PathEntry) (hops : Nat) (blob : Bytes) (now : Nat) : Bool :=
  if hops < pathfinderM + 1 then
    match existing with
    | none => true
    | some e =>
      if hops ≤ e.hops then
        !e.randomBlobs.contains blob && decide (e.emittedAt < blobTimestamp blob)
      else if e.expires ≤ now then !e.randomBlobs.contains blob
      else if pathEmitted (blobTimestamp blob) e.randomBlobs 0 < blobTimestamp blob then
        !e.randomBlobs.contains blob
      else
        decide (blobTimestamp blob = pathEmitted (blobTimestamp blob) e.randomBlobs 0) &&
          e.unresponsive
  else false

/-- Whether an announce from a leaf may take the place of a path through another interface. -/
def mayDisplace (leaf : String → Bool) (existing : Option PathEntry) (h : Hearing) (now : Nat) :
    Bool :=
  match existing with
  | none => true
  | some e =>
    if leaf h.iface && !leaf e.iface && decide (now < e.expires) then
      decide (e.emittedAt < blobTimestamp h.ann.random) &&
        (!e.direct || decide (e.timestamp + leafDisplaceGrace ≤ now))
    else true

/-- The blobs of a path with that of a new announce. -/
def rememberBlob (blobs : List Bytes) (blob : Bytes) : List Bytes :=
  if blobs.contains blob then blobs
  else (blobs ++ [blob]).drop ((blobs ++ [blob]).length - maxRandomBlobs)

/-- The path that an announce leads to, if it takes the place of the present one. -/
def learn (leaf : String → Bool) (ttl : Nat) (existing : Option PathEntry) (h : Hearing)
    (now : Nat) : Option PathEntry :=
  if shouldAdd existing h.hops h.ann.random now && mayDisplace leaf existing h now then
    some
      { destHash := h.ann.destHash
        timestamp := now
        nextHop := h.transportID.getD h.ann.destHash
        hops := h.hops
        expires := now + ttl
        randomBlobs := rememberBlob ((existing.map (·.randomBlobs)).getD []) h.ann.random
        iface := h.iface
        announce := h.ann
        packetHash := h.packetHash
        unresponsive := false }
  else none

variable {blobs : List Bytes} {blob : Bytes}

theorem le_foldl_newest (blobs : List Bytes) (start : Nat) : start ≤ blobs.foldl
        (fun best b => if best < blobTimestamp b then blobTimestamp b else best) start ∧
      ∀ b ∈ blobs, blobTimestamp b ≤ blobs.foldl
        (fun best b => if best < blobTimestamp b then blobTimestamp b else best) start := by
  induction blobs generalizing start with
  | nil => exact ⟨Nat.le_refl _, nofun⟩
  | cons b blobs ih =>
    rw [foldl_cons]
    obtain ⟨hstart, hmem⟩ := ih (if start < blobTimestamp b then blobTimestamp b else start)
    have hboth : start ≤ (if start < blobTimestamp b then blobTimestamp b else start) ∧
        blobTimestamp b ≤ (if start < blobTimestamp b then blobTimestamp b else start) := by
      split <;> omega
    refine ⟨Nat.le_trans hboth.1 hstart, fun b' hb' => ?_⟩
    obtain rfl | hb' := mem_cons.1 hb'
    · exact Nat.le_trans hboth.2 hstart
    · exact hmem b' hb'

theorem foldl_newest_lt {bound : Nat} (h : ∀ b ∈ blobs, blobTimestamp b < bound) {start : Nat}
    (hstart : start < bound) :
    blobs.foldl (fun best b => if best < blobTimestamp b then blobTimestamp b else best) start <
      bound := by
  induction blobs generalizing start with
  | nil => exact hstart
  | cons b blobs ih =>
    obtain ⟨hb, hblobs⟩ := forall_mem_cons.1 h
    rw [foldl_cons]
    apply ih hblobs
    split
    · exact hb
    · exact hstart

theorem forall_lt_of_pathEmitted_lt {emitted newest : Nat}
    (h : pathEmitted emitted blobs newest < emitted) : ∀ b ∈ blobs, blobTimestamp b < emitted := by
  induction blobs generalizing newest with
  | nil => nofun
  | cons b blobs ih =>
    have hb : blobTimestamp b ≤ (if newest < blobTimestamp b then blobTimestamp b else newest) := by
      split <;> omega
    rw [pathEmitted] at h
    by_cases hstop : emitted ≤ (if newest < blobTimestamp b then blobTimestamp b else newest)
    · rw [if_pos hstop] at h
      omega
    · rw [if_neg hstop] at h
      exact forall_mem_cons.2 ⟨by omega, ih h⟩

theorem mem_rememberBlob (blobs : List Bytes) (blob : Bytes) : blob ∈ rememberBlob blobs blob := by
  rw [rememberBlob]
  split
  case isTrue h => simpa using h
  case isFalse =>
    rw [drop_append_of_le_length]
    · exact mem_append_right _ mem_cons_self
    · rw [length_append, length_singleton, maxRandomBlobs]
      omega

variable {leaf : String → Bool} {ttl now : Nat} {h : Hearing} {e e' : PathEntry}

theorem emittedAt_lt_of_learn (hlearn : learn leaf ttl (some e) h now = some e')
    (hlive : now < e.expires) (hresponsive : e.unresponsive = false) :
    e.emittedAt < blobTimestamp h.ann.random := by
  rw [learn, ite_none_right_eq_some] at hlearn
  obtain ⟨hadd, -⟩ := hlearn
  rw [Bool.and_eq_true] at hadd
  obtain ⟨hadd, -⟩ := hadd
  rw [shouldAdd] at hadd
  split at hadd
  · split at hadd
    · rw [Bool.and_eq_true, decide_eq_true_eq] at hadd
      exact hadd.2
    · rw [if_neg (by omega)] at hadd
      split at hadd
      · rename_i hnewer
        exact foldl_newest_lt (forall_lt_of_pathEmitted_lt hnewer) (by omega)
      · rw [hresponsive, Bool.and_false] at hadd
        cases hadd
  · cases hadd

theorem le_emittedAt_of_learn {existing : Option PathEntry}
    (hlearn : learn leaf ttl existing h now = some e') :
    blobTimestamp h.ann.random ≤ e'.emittedAt := by
  rw [learn, ite_none_right_eq_some] at hlearn
  obtain ⟨-, heq⟩ := hlearn
  cases heq
  exact (le_foldl_newest _ 0).2 _ (mem_rememberBlob _ _)

/-- The path to one destination, and the emission times of the announces accepted for it. -/
structure PathRun where
  path : Option PathEntry
  accepted : List Nat

/-- An announce is heard, or a packet goes along the path. -/
inductive PathEvent where
  | announce (h : Hearing) (now : Nat)
  | used (now : Nat)

def PathRun.step (leaf : String → Bool) (ttl : Nat) (s : PathRun) : PathEvent → PathRun
  | .announce h now =>
    match learn leaf ttl s.path h now with
    | none => s
    | some e => { path := some e, accepted := s.accepted ++ [blobTimestamp h.ann.random] }
  | .used now => { s with path := s.path.map fun e => { e with timestamp := now } }

def PathRun.lives (s : PathRun) : PathEvent → Bool
  | .announce _ now => s.path.all fun e => decide (now < e.expires) && !e.unresponsive
  | .used _ => true

def PathRun.Remembers (s : PathRun) : Prop :=
  ∀ stamp ∈ s.accepted, ∃ e, s.path = some e ∧ stamp ≤ e.emittedAt

variable {s : PathRun}

theorem newer_of_learn (hs : s.Remembers) (hlives : s.lives (.announce h now))
    (hlearn : learn leaf ttl s.path h now = some e) :
    ∀ stamp ∈ s.accepted, stamp < blobTimestamp h.ann.random := by
  intro stamp hstamp
  obtain ⟨old, hpath, hle⟩ := hs stamp hstamp
  rw [PathRun.lives, hpath] at hlives
  simp only [all_some, Bool.and_eq_true, decide_eq_true_eq, Bool.not_eq_true'] at hlives
  rw [hpath] at hlearn
  exact Nat.lt_of_le_of_lt hle (emittedAt_lt_of_learn hlearn hlives.1 hlives.2)

theorem step_remembers (hs : s.Remembers) (event : PathEvent) (hlives : s.lives event) :
    (s.step leaf ttl event).Remembers := by
  cases event with
  | announce h now =>
    rw [PathRun.step]
    cases hlearn : learn leaf ttl s.path h now with
    | none => exact hs
    | some e =>
      have hnew := le_emittedAt_of_learn hlearn
      refine all_mem_snoc (fun stamp hold => ⟨e, rfl, ?_⟩) ⟨e, rfl, hnew⟩
      exact Nat.le_trans (Nat.le_of_lt (newer_of_learn hs hlives hlearn stamp hold)) hnew
  | used now =>
    intro stamp hstamp
    obtain ⟨e, hpath, hle⟩ := hs stamp hstamp
    exact ⟨{ e with timestamp := now }, by rw [PathRun.step, hpath]; rfl, hle⟩

/-- In a run in which the path lives, an announce replaces the path only if it was emitted
later than every announce accepted before it in the run; any other leaves the path as it is. -/
theorem path_fresh {path₀ : Option PathEntry}
    (hrun : Reaches (fun s event => some (PathRun.step leaf ttl s event))
      (fun s event => s.lives event = true) { path := path₀, accepted := [] } s)
    {h : Hearing} {now : Nat} (hlives : s.lives (.announce h now) = true) :
    (∀ e, learn leaf ttl s.path h now = some e →
      ∀ stamp ∈ s.accepted, stamp < blobTimestamp h.ann.random) ∧
    ((∃ stamp ∈ s.accepted, blobTimestamp h.ann.random ≤ stamp) →
      (s.step leaf ttl (.announce h now)).path = s.path) := by
  have hs : s.Remembers := by
    refine hrun.invariant nofun fun s event s' hs hok hstep => ?_
    cases hstep
    exact step_remembers hs event hok
  refine ⟨fun e hlearn => newer_of_learn hs hlives hlearn, ?_⟩
  rintro ⟨stamp, hstamp, hle⟩
  rw [PathRun.step]
  cases hlearn : learn leaf ttl s.path h now with
  | none => rfl
  | some e => exact absurd hle (Nat.not_le.2 (newer_of_learn hs hlives hlearn stamp hstamp))

def sampleHearing (emitted : UInt8) (hops : Nat) : Hearing where
  ann :=
    { destHash := [1], random := [7, 7, 7, 7, 7, 0, 0, 0, 0, emitted], publicKey := [],
      appData := [] }
  transportID := some [2]
  hops := hops
  iface := "tcp"
  packetHash := []
  pathResponse := false

/-- The seventy announces of a run, each over more hops than the one before. -/
def seventyAnnounces : List PathEvent :=
  (List.range 70).map fun i => .announce (sampleHearing (.ofNat (i + 1)) (i + 1)) i

/-- After seventy accepted announces a replay of the first one, over a single hop, does not
change the path. -/
theorem path_fresh_after_seventy : ∃ s : PathRun, s.accepted.length = 70 ∧
      (s.step (fun _ => false) 1000 (.announce (sampleHearing 1 1) 100)).path = s.path := by
  have hreplay : (replay (guarded
      (fun s event => some (PathRun.step (fun _ => false) 1000 s event)) PathRun.lives)
      { path := none, accepted := [] } seventyAnnounces).map
        (fun s => if s.lives (.announce (sampleHearing 1 1) 100) ∧ 1 ∈ s.accepted then
          some s.accepted.length else none) = some (some 70) := by
    decide +kernel
  obtain ⟨s, hrun, hview⟩ := exists_reaches_of_guarded hreplay
  obtain ⟨⟨hlives, hone⟩, hlength⟩ := ite_none_right_eq_some.1 hview
  refine ⟨s, some.inj hlength, (path_fresh hrun hlives).2 ⟨1, hone, ?_⟩⟩
  decide +kernel

end MeshsatHub.Rns
