import MeshsatHub.Provisioning.Codes

/-!
# The stash of a provisioning code

In order, the code in the row is always the newest one, so a call that writes the bridge row while
the row holds its code overwrites older bundles only.
-/

namespace MeshsatHub.Provisioning
open Interleaving Runs

variable (g : Store) (nonce : Nat)

/-- The bundle is in the bridge row, or a later one has been. -/
def Store.Installed : Prop :=
  g.passwordHash = some nonce ∨ ∃ later ∈ g.installs, nonce < later

def Store.Kept : Prop :=
  (∃ stash ∈ g.stash, stash.nonce = nonce) ∨ nonce ∈ g.claimed ∨ g.Expired nonce ∨
    nonce + 1 < g.codes.length

def Stash.Made (stash : Stash) : Prop :=
  ∃ code ∈ g.codes[stash.nonce]?, code.createdAt = stash.createdAt

/-- The code was generated by `ProvisionQR`. -/
def Store.ForClaim : Prop :=
  ∃ code ∈ g.codes[nonce]?, code.direct = false

/-- The code was generated by `Provision`. -/
def Store.ForDirect : Prop :=
  ∃ code ∈ g.codes[nonce]?, code.direct = true

/-- What holds of the row and the record. -/
structure StoreInv (g : Store) : Prop where
  newest : ∀ stash ∈ g.stash, stash.nonce + 1 = g.codes.length
  made : ∀ stash ∈ g.stash, stash.Made g
  marked : ∀ stash ∈ g.stash, stash.installed = true → g.passwordHash = some stash.nonce
  unclaimed : ∀ stash ∈ g.stash, stash.nonce ∉ g.claimed
  installs : ∀ nonce ∈ g.installs, nonce < g.codes.length
  claimedOnce : g.claimed.Nodup
  claimedMade : ∀ nonce ∈ g.claimed, nonce < g.codes.length
  handed : HandedInstalled g
  kept : ∀ nonce, g.ForClaim nonce → g.Kept nonce
  returned : ∀ nonce ∈ g.returned, g.ForClaim nonce

def Call.installing : Call → Option Stash
  | .setCertificate _ stash => some stash
  | .mark _ stash => some stash
  | .probe stash => some stash
  | .blank _ stash => some stash
  | _ => none

/-- The stash of a call of `Provision`. -/
def Call.direct : Call → Option Stash
  | .setCredentials .direct stash => some stash
  | .setCertificate .direct stash => some stash
  | .mark .direct stash => some stash
  | .blank .direct stash => some stash
  | _ => none

def Call.Knows : Call → Prop
  | .answer nonce => g.ForClaim nonce
  | .reread nonce => g.ForDirect nonce
  | .expire nonce => g.Expired nonce
  | _ => True

structure Call.Inv (g : Store) (l : Call) : Prop where
  made : ∀ stash ∈ l.holding, stash.Made g
  unclaimed : ∀ stash ∈ l.holding, stash.nonce ∉ g.claimed
  installed : ∀ stash ∈ l.installing, g.Installed stash.nonce
  direct : ∀ stash ∈ l.direct, g.ForDirect stash.nonce
  knows : l.Knows g

/-- Two calls are at work on different codes. -/
def Between (l m : Call) : Prop :=
  ∀ stash ∈ l.holding, ∀ stash' ∈ m.holding, stash.nonce ≠ stash'.nonce

instance : Std.Symm Between := ⟨fun _ _ h stash hm stash' hl heq => h stash' hl stash hm heq.symm⟩

/-- What holds of the stash, the bridge row and the calls under way. -/
abbrev HubInv : Hub → Prop := Interleaving.Inv StoreInv Call.Inv Between

variable {g g' : Store} {l l' m : Call} {nonce : Nat}

/-- Codes are only added, and time does not go back. -/
structure Later (g g' : Store) : Prop where
  codes : ∀ (nonce : Nat), ∀ code ∈ g.codes[nonce]?, code ∈ g'.codes[nonce]?
  clock : g.clock ≤ g'.clock

theorem Later.same (hcodes : g'.codes = g.codes) (hclock : g.clock ≤ g'.clock) : Later g g' :=
  ⟨fun _ _ h => hcodes ▸ h, hclock⟩

theorem Stash.Made.later {stash : Stash} (h : stash.Made g) (hl : Later g g') : stash.Made g' := by
  obtain ⟨code, hcode, heq⟩ := h
  exact ⟨code, hl.codes _ code hcode, heq⟩

theorem Store.ForClaim.later (h : g.ForClaim nonce) (hl : Later g g') : g'.ForClaim nonce := by
  obtain ⟨code, hcode, heq⟩ := h
  exact ⟨code, hl.codes _ code hcode, heq⟩

theorem Store.ForDirect.later (h : g.ForDirect nonce) (hl : Later g g') : g'.ForDirect nonce := by
  obtain ⟨code, hcode, heq⟩ := h
  exact ⟨code, hl.codes _ code hcode, heq⟩

theorem Store.Expired.later (h : g.Expired nonce) (hl : Later g g') : g'.Expired nonce := by
  obtain ⟨code, hcode, hlt⟩ := h
  have hclock := hl.clock
  exact ⟨code, hl.codes _ code hcode, by omega⟩

theorem Call.Knows.later (h : l.Knows g) (hl : Later g g') : l.Knows g' := by
  cases l with
  | answer nonce => exact Store.ForClaim.later h hl
  | reread nonce => exact Store.ForDirect.later h hl
  | expire nonce => exact Store.Expired.later h hl
  | _ => trivial

/-- What a call has is left to it by any change that claims no code it is at work
on and leaves its bundle installed. -/
theorem Call.Inv.later (h : l.Inv g) (hl : Later g g')
    (hclaimed : ∀ stash ∈ l.holding, stash.nonce ∉ g.claimed → stash.nonce ∉ g'.claimed)
    (hinstalled : ∀ stash ∈ l.installing, g.Installed stash.nonce → g'.Installed stash.nonce) :
    l.Inv g' where
  made stash hs := (h.made stash hs).later hl
  unclaimed stash hs := hclaimed stash hs (h.unclaimed stash hs)
  installed stash hs := hinstalled stash hs (h.installed stash hs)
  direct stash hs := (h.direct stash hs).later hl
  knows := h.knows.later hl

theorem Call.Inv.stay (h : l.Inv g) (hcodes : g'.codes = g.codes) (hclock : g'.clock = g.clock)
    (hclaimed : g'.claimed = g.claimed) (hinstalled : g'.Installed = g.Installed) : l.Inv g' :=
  h.later (Later.same hcodes (Int.le_of_eq hclock.symm)) (fun _ _ hn => hclaimed ▸ hn)
    fun _ _ hi => hinstalled ▸ hi

theorem Store.not_forClaim (h : g.ForDirect nonce) : ¬g.ForClaim nonce := by
  rintro ⟨code, hcode, hclaim⟩
  obtain ⟨code', hcode', hdirect⟩ := h
  cases hcode.symm.trans hcode'
  exact absurd (hclaim.symm.trans hdirect) (by decide)

theorem Call.Inv.of_idle (hh : l.holding = none) (hk : l.Knows g) : l.Inv g := by
  have hinstalling : l.installing = none := by cases l <;> first | rfl | exact nomatch hh
  have hdirect : l.direct = none := by
    cases l with
    | setCredentials | setCertificate | mark | blank => exact nomatch hh
    | _ => rfl
  exact ⟨by simp [hh], by simp [hh], by simp [hinstalling], by simp [hdirect], hk⟩

theorem Call.Inv.goOn (h : l.Inv g) (hholding : ∀ stash ∈ l'.holding, stash ∈ l.holding)
    (hinstalling : ∀ stash ∈ l'.installing, stash ∈ l.installing)
    (hdirect : ∀ stash ∈ l'.direct, stash ∈ l.direct) (hknows : l'.Knows g) : l'.Inv g where
  made stash hs := h.made stash (hholding stash hs)
  unclaimed stash hs := h.unclaimed stash (hholding stash hs)
  installed stash hs := h.installed stash (hinstalling stash hs)
  direct stash hs := h.direct stash (hdirect stash hs)
  knows := hknows

theorem Between.of_idle (hh : l.holding = none) : Between l m := by
  simp [Between, hh]

theorem Between.of_holding (h : Between l m) (hh : ∀ stash ∈ l'.holding, stash ∈ l.holding) :
    Between l' m := fun stash hs stash' hs' => h stash (hh stash hs) stash' hs'

theorem mem_some {α : Type} {a b : α} (h : b ∈ some a) : b = a := (Option.some.inj h).symm

variable {s : Hub} {now : Int}

theorem later_tick (hnow : g.clock ≤ now) : Later g { g with clock := now } := Later.same rfl hnow

theorem StoreInv.tick (h : StoreInv g) (hnow : g.clock ≤ now) :
    StoreInv { g with clock := now } where
  __ := h
  kept nonce hclaim := by
    obtain hrow | hclaimed | hexpired | hnewer := h.kept nonce hclaim
    · exact .inl hrow
    · exact .inr (.inl hclaimed)
    · exact .inr (.inr (.inl (hexpired.later (later_tick hnow))))
    · exact .inr (.inr (.inr hnewer))

theorem tick_inv (h : HubInv s) (hnow : s.shared.clock ≤ now) :
    HubInv ⟨{ s.shared with clock := now }, s.calls⟩ where
  shared := h.shared.tick hnow
  calls l hl := (h.calls l hl).later (later_tick hnow) (fun _ _ hn => hn) fun _ _ hi => hi
  between := h.between

end MeshsatHub.Provisioning
