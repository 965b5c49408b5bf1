import MeshsatHub.Foundations.Interleaving

/-!
# Retried bridge commands

Identical POSTs of one command, on any replicas: each claims the command with `Store.Begin`, and the
handler sends it if the claim was won, and also if it was lost and no job came back. An operation on
the KV is one step and does not fail; no key expires.
-/

namespace MeshsatHub.Cmdjobs
open Interleaving Runs List Option Function

structure Job where
  httpStatus : Option Nat
  deriving DecidableEq

/-- The keys of the KV, by request id, and what the claims came to. -/
structure Store where
  ptr : Option String
  jobs : String → Option Job
  wins : List String
  losses : List (String × Option Job)
  sent : Nat

/-- What a POST does next. -/
inductive Stage where
  | setNX
  | setJob
  | getPtr
  | getJob (first : String)
  | send (won : Bool)
  | finish
  | done
  deriving DecidableEq

structure Post where
  requestID : String
  stage : Stage

section Model
variable (explicit : Option String)

def next (g : Store) (id : String) (status : Nat) : Stage → Option (Store × Stage)
  | .setNX =>
    if explicit.isSome then
      if (g.jobs id).isSome then some (g, .getJob id)
      else some ({ g with
        jobs := update g.jobs id (some ⟨none⟩)
        wins := g.wins ++ [id] }, .send true)
    else if g.ptr.isSome then some (g, .getPtr)
    else some ({ g with ptr := some id, wins := g.wins ++ [id] }, .setJob)
  | .setJob => some ({ g with jobs := update g.jobs id (some ⟨none⟩) }, .send true)
  | .getPtr => some (g, g.ptr.elim (.send false) .getJob)
  | .getJob first => some ({ g with losses := g.losses ++ [(first, g.jobs first)] },
      if (g.jobs first).isSome then .done else .send false)
  | .send won => some ({ g with sent := g.sent + 1 }, if won then .finish else .done)
  | .finish => some ({ g with jobs := update g.jobs id (some ⟨some status⟩) }, .done)
  | .done => none

def posts : Program Store Post String Nat where
  start g fresh := some (g, ⟨explicit.getD fresh, .setNX⟩)
  perform g p status :=
    (next explicit g p.requestID status p.stage).map fun (g, stage) => (g, { p with stage })

def idle : System Store Post := ⟨⟨none, fun _ => none, [], [], 0⟩, []⟩

/-- Without a request id, a job is read once it has been stored. -/
def stored (s : System Store Post) : Event String Nat → Bool
  | .act i _ => s.calls[i]?.all fun p =>
    match p.stage with
    | .getJob first => explicit.isSome || (s.shared.jobs first).isSome
    | _ => true
  | .start _ => true

/-- The request id that holds the claim. -/
def Store.holder (g : Store) : Option String :=
  match explicit with
  | some r => (g.jobs r).map fun _ => r
  | none => g.ptr

structure Sound (g : Store) : Prop where
  wins : g.wins = (g.holder explicit).toList
  losses : ∀ o ∈ g.losses, g.holder explicit = some o.1 ∧ o.2.isSome = true

def Fits (g : Store) (p : Post) : Prop :=
  (∀ r, explicit = some r → p.requestID = r) ∧
    match p.stage with
    | .setNX => True
    | .getPtr => explicit = none ∧ g.ptr.isSome = true
    | .getJob first => g.holder explicit = some first
    | .send false => False
    | _ => (g.holder explicit).isSome = true

def Post.holds (p : Post) : Bool :=
  match p.stage with
  | .setJob | .send true => true
  | _ => false

end Model

section Steps
variable {explicit : Option String} {g g' : Store} {id : String} {job : Job}

theorem holder_update (hid : ∀ r, explicit = some r → id = r) (h : (g.holder explicit).isSome) :
    ({ g with jobs := update g.jobs id (some job) } : Store).holder explicit =
      g.holder explicit := by
  cases explicit with
  | none => rfl
  | some r =>
    obtain rfl := hid r rfl
    obtain ⟨x, hx⟩ := isSome_iff_exists.1 h
    obtain ⟨_, hjob, rfl⟩ := map_eq_some_iff.1 hx
    simp [Store.holder, hjob]

theorem Sound.update (h : Sound explicit g) (hid : ∀ r, explicit = some r → id = r)
    (hheld : (g.holder explicit).isSome) :
    Sound explicit { g with jobs := update g.jobs id (some job) } := by
  constructor <;> rw [holder_update hid hheld]
  · exact h.wins
  · exact h.losses

theorem Sound.won (id : String) (h : Sound explicit g) (hfree : g.holder explicit = none)
    (hholder : g'.holder explicit = some id) (hwins : g'.wins = g.wins ++ [id])
    (hlosses : g'.losses = g.losses) : Sound explicit g' := by
  refine ⟨?_, fun o ho => ?_⟩
  · rw [hwins, h.wins, hfree, hholder]
    rfl
  · have hheld := (h.losses o (hlosses ▸ ho)).1
    rw [hfree] at hheld
    cases hheld

theorem next_sound {p : Post} {status : Nat} {stage : Stage} (h : Sound explicit g)
    (hp : Fits explicit g p)
    (hstored : ∀ first, p.stage = .getJob first → explicit = none → (g.jobs first).isSome)
    (hnext : next explicit g p.requestID status p.stage = some (g', stage)) :
    Sound explicit g' ∧ Fits explicit g' { p with stage } ∧
      (∀ x, g.holder explicit = some x → g'.holder explicit = some x) ∧
      g'.sent + (Post.holds { p with stage }).toNat + g.wins.length =
        g.sent + p.holds.toNat + g'.wins.length := by
  obtain ⟨id, stage₀⟩ := p
  obtain ⟨hid, hfits⟩ := hp
  dsimp only at hnext hstored hid hfits ⊢
  revert hnext
  fun_cases next explicit g id status stage₀ with rintro ⟨⟩
  | case1 hexplicit hjob =>
    obtain ⟨r, rfl⟩ := isSome_iff_exists.1 hexplicit
    obtain rfl := hid r rfl
    obtain ⟨job, hjob⟩ := isSome_iff_exists.1 hjob
    exact ⟨h, ⟨hid, by simp [Store.holder, hjob]⟩, fun _ hx => hx, rfl⟩
  | case2 hexplicit hjob =>
    obtain ⟨r, rfl⟩ := isSome_iff_exists.1 hexplicit
    obtain rfl := hid r rfl
    have hfree : g.holder (some id) = none := by simpa [Store.holder] using hjob
    refine ⟨Sound.won id h hfree (by simp [Store.holder]) rfl rfl,
      ⟨hid, by simp [Store.holder]⟩, ?_, ?_⟩
    · rw [hfree]
      exact nofun
    · simp [Post.holds]
      omega
  | case3 hexplicit hptr =>
    obtain rfl : explicit = none := by simpa using hexplicit
    exact ⟨h, ⟨hid, rfl, hptr⟩, fun _ hx => hx, rfl⟩
  | case4 hexplicit hptr =>
    obtain rfl : explicit = none := by simpa using hexplicit
    have hfree : g.holder none = none := by simpa [Store.holder] using hptr
    refine ⟨Sound.won id h hfree rfl rfl rfl, ⟨hid, rfl⟩, ?_, ?_⟩
    · rw [hfree]
      exact nofun
    · simp [Post.holds]
      omega
  | case5 | case9 =>
    refine ⟨h.update hid hfits, ⟨hid, ?_⟩, fun _ hx => (holder_update hid hfits).trans hx, rfl⟩
    rw [holder_update hid hfits]
    exact hfits
  | case6 =>
    obtain ⟨rfl, hptr⟩ := hfits
    obtain ⟨first, hptr⟩ := isSome_iff_exists.1 hptr
    rw [hptr]
    exact ⟨h, ⟨hid, hptr⟩, fun _ hx => hx, rfl⟩
  | case7 first =>
    have hjob : (g.jobs first).isSome := by
      cases explicit with
      | none => exact hstored first rfl rfl
      | some r =>
        obtain ⟨job, hjob, rfl⟩ := map_eq_some_iff.1 hfits
        exact isSome_of_eq_some hjob
    rw [if_pos hjob]
    exact ⟨⟨h.wins, all_mem_snoc h.losses ⟨hfits, hjob⟩⟩, ⟨hid, isSome_of_eq_some hfits⟩,
      fun _ hx => hx, rfl⟩
  | case8 won =>
    cases won with
    | false => exact hfits.elim
    | true => exact ⟨{ h with }, ⟨hid, hfits⟩, fun _ hx => hx, rfl⟩

theorem Fits.mono {p : Post} (hp : Fits explicit g p)
    (h : ∀ x, g.holder explicit = some x → g'.holder explicit = some x) : Fits explicit g' p := by
  have hheld (hsome : (g.holder explicit).isSome) : (g'.holder explicit).isSome := by
    obtain ⟨x, hx⟩ := isSome_iff_exists.1 hsome
    exact isSome_of_eq_some (h x hx)
  obtain ⟨id, stage⟩ := p
  refine ⟨hp.1, ?_⟩
  have hfits := hp.2
  cases stage with
  | setNX => trivial
  | getPtr =>
    obtain ⟨rfl, hptr⟩ := hfits
    exact ⟨rfl, hheld hptr⟩
  | getJob first => exact h first hfits
  | send won =>
    cases won with
    | false => exact hfits.elim
    | true => exact hheld hfits
  | setJob | finish | done => exact hheld hfits

variable {s t : System Store Post} {e : Event String Nat}

/-- Every claim that is won is sent, or is about to be. -/
def Kept (explicit : Option String) (s : System Store Post) : Prop :=
  Inv (Sound explicit) (Fits explicit) (fun _ _ => True) s ∧
    s.shared.sent + s.calls.countP Post.holds = s.shared.wins.length

theorem kept_step (h : Kept explicit s) (hok : stored explicit s e)
    (hstep : step (posts explicit) s e = some t) : Kept explicit t := by
  obtain ⟨hinv, hcount⟩ := h
  obtain ⟨fresh, g, p, hstart⟩ | ⟨i, status, p, g, p', hi, hact⟩ := step_cases hstep
  · cases hstart
    refine ⟨hinv.begun hinv.shared ⟨?_, trivial⟩ fun _ _ hm => ⟨hm, trivial⟩, ?_⟩
    · rintro r rfl
      rfl
    · simpa [countP_append, Post.holds] using hcount
  · obtain ⟨⟨g, stage⟩, hnext, heq⟩ := map_eq_some_iff.1 hact
    cases heq
    have hstored : ∀ first, p.stage = .getJob first → explicit = none →
        (s.shared.jobs first).isSome := by
      rintro first hfirst rfl
      simpa [stored, hi, hfirst] using hok
    obtain ⟨hsound, hfits, hholder, hsent⟩ := next_sound hinv.shared (hinv.call hi) hstored hnext
    refine ⟨hinv.acted hi hsound hfits fun m _ hm _ => ⟨hm.mono hholder, trivial⟩, ?_⟩
    have hacted := countP_acted hi { p with stage } Post.holds
    dsimp only
    omega

/-- One claim is won and every other one returns the winner's job, and the command is sent once. -/
theorem command_sent_once
    (hs : Reaches (step (posts explicit)) (fun s e => stored explicit s e = true) idle s) :
    s.shared.wins.length ≤ 1 ∧ s.shared.sent ≤ 1 ∧
      (∀ o ∈ s.shared.losses, s.shared.wins = [o.1] ∧ o.2.isSome = true) ∧
      (s.calls ≠ [] → (∀ p ∈ s.calls, p.stage = .done) →
        s.shared.wins.length = 1 ∧ s.shared.sent = 1) := by
  obtain ⟨hinv, hcount⟩ : Kept explicit s := by
    refine hs.invariant ⟨Inv.nil ⟨?_, nofun⟩, rfl⟩ fun s e t h hok hstep => kept_step h hok hstep
    cases explicit <;> rfl
  have hone : s.shared.wins.length ≤ 1 := by
    rw [hinv.shared.wins, length_toList]
    split <;> decide
  refine ⟨hone, by omega, fun o ho => ?_, fun hne hdone => ?_⟩
  · obtain ⟨hholder, hjob⟩ := hinv.shared.losses o ho
    rw [hinv.shared.wins, hholder]
    exact ⟨rfl, hjob⟩
  · obtain ⟨p, hp⟩ := exists_mem_of_ne_nil _ hne
    have hheld := (hinv.calls p hp).2
    rw [hdone p hp] at hheld
    obtain ⟨x, hx⟩ := isSome_iff_exists.1 hheld
    have hnone : s.calls.countP Post.holds = 0 := by
      refine countP_eq_zero.2 fun p hp => ?_
      simp [Post.holds, hdone p hp]
    rw [hinv.shared.wins, hx] at hcount ⊢
    exact ⟨rfl, by simpa [hnone] using hcount⟩

end Steps

/-- The second POST reads the job once the first has stored it. -/
theorem command_sent_once_retried :
    ∃ s, Reaches (step (posts none)) (fun s e => stored none s e = true) idle s ∧
      s.shared.wins = ["a"] ∧ s.shared.sent = 1 := by
  obtain ⟨s, hs, ⟨hlost, hne, hdone⟩, -, -, hlosses, honce⟩ := exists_reaches_and_of_decide
    (P := fun s => ("a", some ⟨none⟩) ∈ s.shared.losses ∧ s.calls ≠ [] ∧
      ∀ p ∈ s.calls, p.stage = .done)
    [.start "a", .start "b", .act 0 200, .act 1 200, .act 1 200, .act 0 200, .act 1 200,
      .act 0 200, .act 0 200] (by decide +kernel)
    fun s (hs : Reaches (step (posts none)) _ idle s) => command_sent_once hs
  exact ⟨s, hs, (hlosses _ hlost).1, (honce hne hdone).2⟩

/-- The second POST reads the job between the two writes of the first. -/
theorem sent_twice : ∃ s, Reaches (step (posts none)) (fun _ _ => True) idle s ∧
      s.shared.losses = [("a", none)] ∧ s.shared.sent = 2 := by
  exact exists_reaches_of_decide [.start "a", .start "b", .act 0 200, .act 1 200, .act 1 200,
    .act 1 200, .act 1 200, .act 0 200, .act 0 200] (by decide +kernel)

end MeshsatHub.Cmdjobs
