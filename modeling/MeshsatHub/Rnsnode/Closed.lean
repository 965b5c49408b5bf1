import MeshsatHub.Rnsnode.Starts

/-!
# A private network is closed to whoever does not have its code

A private node has to do only with connections that presented its tenant's code, and loses those it
should lose, in runs in which no code changes while a frame that the old key opened is being
classified, no list of a released node is taken while a read loop is about to enter it, and no
failed write is the first to take its connection off the listener.
-/

namespace MeshsatHub.Rnsnode
open Interleaving Runs List

/-- When a step may be taken. -/
def orderly (s : System Store Call) : Event Request Op → Bool
  | .start (.privateNode tenant code _) =>
    match s.shared.privates tenant with
    | some n =>
      (s.shared.key n).map Key.code == some code ||
        s.calls.all fun m => m.classifies != some n
    | none => true
  | .start _ => true
  | .act i _ =>
    match s.calls[i]? with
    | some (.dropping id) => !s.shared.conns.contains id
    | some (.releasing n) => s.calls.all fun m => m.enters != some n
    | _ => true

variable {cfg : Config} {s t : System Store Call}

theorem initial_sound : Sound initial where
  inv := by
    refine Inv.nil ⟨?_, nofun, ?_, ?_, nofun, nofun, nofun, ?_, ?_, nofun, nofun⟩
    · exact nofun
    · rintro id n ⟨key, frame, h⟩
      exact absurd h not_mem_nil
    · exact nofun
    · exact nofun
    · exact fun _ _ h => h.elim (absurd · not_mem_nil) (absurd · not_mem_nil)
  unbinding := fun _ howes => absurd rfl howes.1
  unlisting := fun _ howes => absurd howes.1 not_mem_nil

variable {request : Request} {i id n : Nat} {e : Event Request Op} {r : Return}

theorem not_classifies (hok : orderly s (.start request)) (m : Call) (tenant : String)
    (code : Code) (order : List Nat) (n : Nat) (hm : m ∈ s.calls)
    (hrequest : request = .privateNode tenant code order)
    (hprivate : s.shared.privates tenant = some n)
    (hne : (s.shared.key n).map Key.code ≠ some code) : m.classifies ≠ some n := by
  subst hrequest
  simp only [orderly, hprivate, Bool.or_eq_true, beq_iff_eq, all_eq_true, bne_iff_ne] at hok
  exact hok.resolve_left hne m hm

section
variable (h : Sound s)
include h

theorem start_spec {g : Store} {l : Call} (hok : orderly s (.start request))
    (hstart : start cfg s.shared request = some (g, l)) : Begun s.shared (· ∈ s.calls) g l :=
  start_begun h.inv.shared (fun m tenant code order n hm hrequest hprivate hne =>
    not_classifies hok m tenant code order n hm hrequest hprivate hne) hstart

theorem act_spec {op : Op} {g : Store} {l l' : Call}
    (hok : orderly s (.act i op)) (hi : s.calls[i]? = some l)
    (hperform : perform cfg s.shared l op = some (g, l')) : Kept s.shared l (· ∈ s.calls) g l' := by
  have hl : Local s.shared l := h.inv.call hi
  refine perform_kept h.inv.shared hl ?_ ?_ hperform
  · rintro id rfl
    simpa [orderly, hi] using hok
  · rintro m n hm rfl
    simp only [orderly, hi, all_eq_true, bne_iff_ne] at hok
    exact hok m hm

theorem step_sound (hok : orderly s e) (hstep : step (program cfg) s e = some t) : Sound t := by
  obtain ⟨request, g, l, hstart⟩ | ⟨i, op, l, g, l', hi, hperform⟩ := step_cases hstep
  · have hbegun := start_spec h hok hstart
    exact ⟨h.inv.begun hbegun.shared hbegun.call hbegun.others,
      h.unbinding.begun fun id howes => .inr (hbegun.unbinding id howes),
      h.unlisting.begun fun q howes => .inr (hbegun.unlisting q howes)⟩
  · have hkept := act_spec h hok hi hperform
    exact ⟨h.inv.acted hi hkept.shared hkept.call hkept.others,
      h.unbinding.acted hi hkept.unbinding, h.unlisting.acted hi hkept.unlisting⟩

theorem sound_of_reaches
    (hrun : Reaches (step (program cfg)) (fun s e => orderly s e) s t) : Sound t :=
  hrun.invariant h fun _ _ _ hs hok hstep => step_sound hs hok hstep

theorem worksOn_of_listed (hlisted : id ∈ s.shared.ifaces n)
    (hgone : id ∉ s.shared.conns) : ∃ l ∈ s.calls, l.worksOn = some id := by
  have hworks {l : Call} (hl : l.unbinds = some id ∨ ∃ n, l.unlists = some (id, n)) :
      l.worksOn = some id := by
    cases l with
    | unbinding c rest after =>
      obtain heq | ⟨n, heq⟩ := hl
      · exact heq
      · cases heq
    | unlisting c k rest after | confirming c k | withdrawing c k =>
      obtain heq | ⟨n, heq⟩ := hl
      · cases heq
      · cases heq
        rfl
    | _ => exact hl.elim nofun fun ⟨_, heq⟩ => nomatch heq
  by_cases hbinding : s.shared.bindings id = none
  · obtain ⟨l, hl, htends⟩ := h.unlisting (id, n) ⟨hlisted, hbinding⟩
    exact ⟨l, hl, hworks (.inr ⟨n, htends⟩)⟩
  · obtain ⟨l, hl, htends⟩ := h.unbinding id ⟨hbinding, hgone⟩
    exact ⟨l, hl, hworks (.inl htends)⟩

end

theorem returned_step (hi : s.calls[i]? = some (.returned r))
    (hstep : step (program cfg) s e = some t) : t.calls[i]? = some (.returned r) := by
  obtain ⟨request, g, l, hstart⟩ | ⟨j, op, l, g, l', hj, hperform⟩ := step_cases hstep
  · obtain ⟨hlt, -⟩ := List.getElem?_eq_some_iff.1 hi
    rw [getElem?_append_left hlt]
    exact hi
  · have hne : j ≠ i := by
      rintro rfl
      rw [hj, Option.some.injEq] at hi
      subst hi
      cases op <;> cases hperform
    rw [getElem?_set_ne hne]
    exact hi

/-- A step does not put a revoked connection into a list, and nobody starts to take it out who
was not at it already. -/
theorem revoked_step (h : Sound s) (hi : s.calls[i]? = some (.returned r))
    (hok : orderly s e) (hstep : step (program cfg) s e = some t)
    (hrevoked : t.shared.Revoked r n id) (hlisted : id ∈ t.shared.ifaces n) :
    (s.shared.Revoked r n id ∧ id ∈ s.shared.ifaces n) ∧
      ∀ (j : Nat) (m : Call), t.calls[j]? = some m → m.worksOn = some id →
        ∃ l, s.calls[j]? = some l ∧ l.worksOn = some id := by
  have hreturned : Local s.shared (.returned r) := h.inv.call hi
  obtain ⟨request, g, l, hstart⟩ | ⟨j, op, l, g, l', hj, hperform⟩ := step_cases hstep
  · have hbegun := start_spec h hok hstart
    have hbefore := hbegun.listed n id hlisted
    refine ⟨⟨revoked_before h.inv.shared hbegun.shared hbegun.log hbefore hrevoked, hbefore⟩, ?_⟩
    intro k m hk hm
    by_cases hlt : k < s.calls.length
    · rw [getElem?_append_left hlt] at hk
      exact ⟨m, hk, hm⟩
    · rw [getElem?_append_right (Nat.le_of_not_lt hlt), getElem?_singleton] at hk
      split at hk
      · cases hk
        rw [hbegun.working] at hm
        cases hm
      · cases hk
  · have hkept := act_spec h hok hj hperform
    -- The acting call is not about to put the connection into the list.
    have hinserting (k : Nat) (key : Key) (hl : l = .inserting id k key) :
        ¬s.shared.Revoked r k id := by
      subst hl
      have hne : j ≠ i := by
        rintro rfl
        rw [hj] at hi
        cases hi
      have hbetween := h.inv.between_calls hj hi hne
      exact not_revoked_of_inserting h.inv.shared (h.inv.call hj) hreturned rfl hbetween
    have hbefore : id ∈ s.shared.ifaces n := by
      apply (hkept.listed n id hlisted).resolve_right
      rintro ⟨key, rfl⟩
      cases op with cases hperform
      | go => exact hinserting n key rfl hrevoked
    have hrevoked' := revoked_before h.inv.shared hkept.shared hkept.log hbefore hrevoked
    refine ⟨⟨hrevoked', hbefore⟩, ?_⟩
    intro k m hk hm
    by_cases hkj : j = k
    · subst hkj
      obtain ⟨hlt, -⟩ := List.getElem?_eq_some_iff.1 hj
      rw [getElem?_set_self hlt] at hk
      cases hk
      obtain hworks | hconn | ⟨n', key, hl⟩ := hkept.working id hm
      · exact ⟨l, hj, hworks⟩
      · exact absurd (hreturned.2 n id hrevoked' hbefore hconn) not_mem_nil
      · exfalso
        subst hl
        have hbound : s.shared.Bound id n' :=
          ((h.inv.call hj).2.2).imp' _ fun frame hframe => ⟨frame, hframe⟩
        obtain ⟨key₁, frame₁, h₁⟩ := hbound
        obtain ⟨key₂, frame₂, h₂⟩ := h.inv.shared.bound_of_listed n id hbefore
        obtain ⟨rfl, -⟩ := h.inv.shared.bound_unique id n' key₁ frame₁ n key₂ frame₂ h₁ h₂
        exact hinserting n' key rfl hrevoked'
    · rw [getElem?_set_ne hkj] at hk
      exact ⟨m, hk, hm⟩

theorem revoked_run (h : Sound s) (hi : s.calls[i]? = some (.returned r))
    (hrun : Reaches (step (program cfg)) (fun s e => orderly s e) s t)
    (hrevoked : t.shared.Revoked r n id) (hlisted : id ∈ t.shared.ifaces n) (j : Nat) (m : Call)
    (hj : t.calls[j]? = some m) (hm : m.worksOn = some id) :
    ∃ l, s.calls[j]? = some l ∧ l.worksOn = some id := by
  induction hrun generalizing j m with
  | refl => exact ⟨m, hj, hm⟩
  | tail e hreach hok hstep ih =>
    have hi' := hreach.invariant hi fun _ _ _ hu _ hstep => returned_step hu hstep
    obtain ⟨⟨hrevoked', hlisted'⟩, hback⟩ := revoked_step (sound_of_reaches h hreach) hi' hok
      hstep hrevoked hlisted
    obtain ⟨l, hl, hworks⟩ := hback j m hj hm
    exact ih hrevoked' hlisted' j l hl hworks

/-- The interface list of a private node, or of the main node. -/
def Store.InList (g : Store) : Option Nat → Nat → Prop
  | some n, id => id ∈ g.ifaces n
  | none, id => g.isMainBound id = true

structure NetworksClosed (cfg : Config) (ok : System Store Call → Event Request Op → Prop)
    (s : System Store Call) : Prop where
  /-- A private node is handed frames from, and transmits on, connections whose classifying
  frame was made with a code that its tenant had set. -/
  members : ∀ n id, .handed n id ∈ s.shared.log ∨ .sent n id ∈ s.shared.log →
    ∃ tenant key frame, s.shared.tenant n = some tenant ∧ .keyed tenant n key ∈ s.shared.log ∧
      .bound id n key frame ∈ s.shared.log ∧ key.code.unwrap frame = true
  /-- A connection is in one list. -/
  apart : ∀ w w' id, s.shared.InList w id → s.shared.InList w' id → w = w'
  /-- After a change of the code or a release has returned, a connection from before is in the
  list only as long as a call that was taking it out then has not finished. -/
  revoked : ∀ (i : Nat) r t n id, s.calls[i]? = some (.returned r) →
    Reaches (step (program cfg)) ok s t → t.shared.Revoked r n id → id ∈ t.shared.ifaces n →
    ∃ j : Nat, ∀ u, Reaches (step (program cfg)) ok s u → Reaches (step (program cfg)) ok u t →
      ∃ l, u.calls[j]? = some l ∧ l.worksOn = some id
  /-- A connection that is off the listener is in a list only as long as a call is taking it
  out. -/
  gone : ∀ w id, s.shared.InList w id → id ∉ s.shared.conns →
    ∃ l ∈ s.calls, l.worksOn = some id

/-- A private network is closed to whoever does not have its code, in every state of an orderly
run. -/
theorem private_networks_closed {s : System Store Call}
    (hrun : Reaches (step (program cfg)) (fun s e => orderly s e = true) initial s) :
    NetworksClosed cfg (fun s e => orderly s e = true) s := by
  have h : Sound s := sound_of_reaches initial_sound hrun
  have hmain {n id : Nat} (hlisted : id ∈ s.shared.ifaces n)
      (hmain : s.shared.isMainBound id) : False := by
    unfold Store.isMainBound at hmain
    split at hmain
    case h_1 b hb =>
      have htn := (h.inv.shared.tn_iff id b n hb).2 (h.inv.shared.bound_of_listed n id hlisted)
      rw [h.inv.shared.tn_of_main id b hb hmain] at htn
      cases htn
    · cases hmain
  refine ⟨?_, ?_, ?_, ?_⟩
  · intro n id huse
    obtain ⟨key, frame, hbound⟩ := h.inv.shared.bound_of_use n id huse
    obtain ⟨hopens, tenant, htenant, hkeyed⟩ := h.inv.shared.keyed_of_bound id n key frame hbound
    exact ⟨tenant, key, frame, htenant, hkeyed, hbound, hopens⟩
  · intro w w' id hw hw'
    cases w with
    | none =>
      cases w' with
      | none => rfl
      | some n => exact (hmain hw' hw).elim
    | some n =>
      cases w' with
      | none => exact (hmain hw hw').elim
      | some n' =>
        obtain ⟨key, frame, hbound⟩ := h.inv.shared.bound_of_listed n id hw
        obtain ⟨key', frame', hbound'⟩ := h.inv.shared.bound_of_listed n' id hw'
        rw [(h.inv.shared.bound_unique id n key frame n' key' frame' hbound hbound').1]
  · intro i r t n id hi ht hrevoked hlisted
    have hsound : Sound t := sound_of_reaches h ht
    have hi' := ht.invariant hi fun _ _ _ hu _ hstep => returned_step hu hstep
    have hreturned : Local t.shared (.returned r) := hsound.inv.call hi'
    have hgone : id ∉ t.shared.conns := fun hconn =>
      absurd (hreturned.2 n id hrevoked hlisted hconn) not_mem_nil
    obtain ⟨m, hm, hworks⟩ := worksOn_of_listed hsound hlisted hgone
    obtain ⟨j, hj⟩ := mem_iff_getElem?.1 hm
    refine ⟨j, fun u hu hut => ?_⟩
    have hiu := hu.invariant hi fun _ _ _ hv _ hstep => returned_step hv hstep
    exact revoked_run (sound_of_reaches h hu) hiu hut hrevoked hlisted j m hj hworks
  · intro w id hw hgone
    cases w with
    | some n => exact worksOn_of_listed h hw hgone
    | none =>
      have hbinding : s.shared.bindings id ≠ none := by
        intro hnone
        rw [Store.InList, Store.isMainBound, hnone] at hw
        cases hw
      obtain ⟨l, hl, htends⟩ := h.unbinding id ⟨hbinding, hgone⟩
      refine ⟨l, hl, ?_⟩
      cases l with
      | unbinding c rest after => exact htends
      | _ => cases htends

/-- A connection presents a tenant's code, up to where its read loop has found the key. -/
def presented : List (Event Request Op) :=
  [.start .accept, .act 0 .go, .start (.privateNode "alpha" ⟨"net", "first"⟩ []),
    .act 0 (.frame ⟨true, some ⟨"net", "first"⟩⟩), .act 0 (.allow true), .act 0 (.ranged [0]),
    .act 0 (.allow true)]

/-- The read loop goes on for a number of steps. -/
def goesOn (count : Nat) : List (Event Request Op) := List.replicate count (.act 0 .go)

/-- The node is handed the frame and answers it; then the code changes, and the connection is
closed. -/
def rekeyed : List (Event Request Op) :=
  presented ++ goesOn 5 ++
    [.start (.transmit (some 0) 1), .act 2 .go, .act 2 (.wrote true),
      .start (.privateNode "alpha" ⟨"net", "second"⟩ [1]), .act 3 .go, .act 3 .go, .act 3 .go,
      .act 3 .go]

theorem private_networks_closed_rekeyed :
    ∃ s, Reaches (step (program ⟨none, 512⟩)) (fun s e => orderly s e = true) initial s ∧
      s.calls[3]? = some (.returned (.changed 0 ⟨⟨"net", "second"⟩, 1⟩)) ∧
      s.shared.log = [.opened 1, .keyed "alpha" 0 ⟨⟨"net", "first"⟩, 0⟩,
        .bound 1 0 ⟨⟨"net", "first"⟩, 0⟩ ⟨true, some ⟨"net", "first"⟩⟩, .handed 0 1, .sent 0 1,
        .keyed "alpha" 0 ⟨⟨"net", "second"⟩, 1⟩] ∧
      s.shared.ifaces 0 = [] ∧
      NetworksClosed ⟨none, 512⟩ (fun s e => orderly s e = true) s := by
  simpa only [and_assoc] using exists_reaches_and_of_decide
    (P := fun s => s.calls[3]? = some (.returned (.changed 0 ⟨⟨"net", "second"⟩, 1⟩)) ∧
      s.shared.log = [.opened 1, .keyed "alpha" 0 ⟨⟨"net", "first"⟩, 0⟩,
        .bound 1 0 ⟨⟨"net", "first"⟩, 0⟩ ⟨true, some ⟨"net", "first"⟩⟩, .handed 0 1, .sent 0 1,
        .keyed "alpha" 0 ⟨⟨"net", "second"⟩, 1⟩] ∧ s.shared.ifaces 0 = [])
    rekeyed (by decide +kernel) fun s (hs : Reaches (step (program ⟨none, 512⟩)) _ _ s) =>
      private_networks_closed hs

/-- The code changes while a read loop has the old key in hand. -/
def changedMeanwhile : List (Event Request Op) :=
  presented ++ [.start (.privateNode "alpha" ⟨"net", "second"⟩ [])] ++ goesOn 5

/-- The node is released while a read loop, which has found it live, is about to bind. -/
def releasedMeanwhile : List (Event Request Op) :=
  presented ++ goesOn 1 ++ [.start (.releasePrivate "alpha"), .act 2 (.ranged [])] ++ goesOn 4

def writeFailed : List (Event Request Op) :=
  presented ++ goesOn 5 ++
    [.start (.transmit (some 0) 1), .act 2 .go, .act 2 (.wrote false), .act 2 .go, .act 0 .hangUp,
      .act 0 .go]

/-- A connection that nobody is taking out stays in the list after a change of the code, after
the node's release, and after it has gone. -/
theorem outsider_stays : (∃ s, Reaches (step (program ⟨none, 512⟩)) (fun _ _ => True) initial s ∧
      s.calls = [.reading 1, .returned .served,
        .returned (.changed 0 ⟨⟨"net", "second"⟩, 1⟩)] ∧
      .bound 1 0 ⟨⟨"net", "first"⟩, 0⟩ ⟨true, some ⟨"net", "first"⟩⟩ ∈ s.shared.log ∧
      s.shared.ifaces 0 = [1] ∧ ¬NetworksClosed ⟨none, 512⟩ (fun _ _ => True) s) ∧
    (∃ s, Reaches (step (program ⟨none, 512⟩)) (fun _ _ => True) initial s ∧
      s.calls = [.reading 1, .returned .served, .returned (.released 0)] ∧
      s.shared.ifaces 0 = [1] ∧ ¬NetworksClosed ⟨none, 512⟩ (fun _ _ => True) s) ∧
    ∃ s, Reaches (step (program ⟨none, 512⟩)) (fun _ _ => True) initial s ∧
      s.calls = [.returned .served, .returned .served, .returned .served] ∧
      s.shared.ifaces 0 = [1] ∧ s.shared.conns = [] ∧
      ¬NetworksClosed ⟨none, 512⟩ (fun _ _ => True) s := by
  -- Nobody is at work on anything in the three states.
  have hidle {s : System Store Call} {id : Nat} (hcalls : s.calls.all (·.worksOn == none))
      (l : Call) (hl : l ∈ s.calls) : l.worksOn ≠ some id := by
    have hnone := all_eq_true.1 hcalls l hl
    rw [beq_iff_eq] at hnone
    rw [hnone]
    exact nofun
  have hstays {s : System Store Call} {r : Return} (hcalls : s.calls.all (·.worksOn == none))
      (hr : s.calls[2]? = some (.returned r)) (hrevoked : s.shared.Revoked r 0 1)
      (hlist : s.shared.ifaces 0 = [1]) : ¬NetworksClosed ⟨none, 512⟩ (fun _ _ => True) s := by
    intro hclosed
    have hlisted : 1 ∈ s.shared.ifaces 0 := by simp [hlist]
    obtain ⟨j, hj⟩ := hclosed.revoked 2 r s 0 1 hr Reaches.refl hrevoked hlisted
    obtain ⟨l, hl, hworks⟩ := hj s Reaches.refl Reaches.refl
    exact hidle hcalls l (mem_of_getElem? hl) hworks
  have hfound := @exists_reaches_of_decide _ _ (step (program ⟨none, 512⟩)) initial
  refine ⟨?_, ?_, ?_⟩
  · obtain ⟨s, hs, hcalls, hbound, hlist⟩ := hfound (P := fun s =>
        s.calls = [.reading 1, .returned .served, .returned (.changed 0 ⟨⟨"net", "second"⟩, 1⟩)] ∧
        .bound 1 0 ⟨⟨"net", "first"⟩, 0⟩ ⟨true, some ⟨"net", "first"⟩⟩ ∈ s.shared.log ∧
        s.shared.ifaces 0 = [1]) changedMeanwhile (by decide +kernel)
    have hreturned : s.calls[2]? = some (.returned (.changed 0 ⟨⟨"net", "second"⟩, 1⟩)) := by
      rw [hcalls]
      rfl
    refine ⟨s, hs, hcalls, hbound, hlist, ?_⟩
    exact hstays (by rw [hcalls]; rfl) hreturned ⟨rfl, _, _, hbound, Nat.zero_lt_one⟩ hlist
  · obtain ⟨s, hs, hcalls, hlist⟩ := hfound (P := fun s =>
        s.calls = [.reading 1, .returned .served, .returned (.released 0)] ∧
        s.shared.ifaces 0 = [1]) releasedMeanwhile (by decide +kernel)
    have hreturned : s.calls[2]? = some (.returned (.released 0)) := by
      rw [hcalls]
      rfl
    exact ⟨s, hs, hcalls, hlist, hstays (by rw [hcalls]; rfl) hreturned rfl hlist⟩
  · obtain ⟨s, hs, hcalls, hlist, hconns⟩ := hfound (P := fun s =>
        s.calls = [.returned .served, .returned .served, .returned .served] ∧
        s.shared.ifaces 0 = [1] ∧ s.shared.conns = []) writeFailed (by decide +kernel)
    refine ⟨s, hs, hcalls, hlist, hconns, fun hclosed => ?_⟩
    have hlisted : s.shared.InList (some 0) 1 := by simp [Store.InList, hlist]
    obtain ⟨l, hl, hworks⟩ := hclosed.gone (some 0) 1 hlisted (by simp [hconns])
    exact hidle (by rw [hcalls]; rfl) l hl hworks

end MeshsatHub.Rnsnode
