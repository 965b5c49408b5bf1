import MeshsatHub.Foundations.Interleaving

/-!
# Provisioning codes

`ProvisionQR`, `Provision` and `ClaimProvision` for one bridge as sequences of store operations.
Codes are numbered in the order in which they are stashed; the number stands for the nonce, the
bundle and its password hash. No store operation fails, and time never goes back. No operation looks
at `installs`, `returned` and `handouts`.
-/

namespace MeshsatHub.Provisioning
open Interleaving

/-- The stash of a code: its nonce, when it was made, and whether the bridge row
carries its bundle. -/
structure Stash where
  nonce : Nat
  createdAt : Int
  installed : Bool

/-- A generated code; a direct one comes from `Provision`. -/
structure Code where
  createdAt : Int
  direct : Bool

/-- Who hands a bundle out. -/
inductive Handler where
  | claim
  | direct
  deriving DecidableEq

structure Handout where
  handler : Handler
  bundle : Nat
  passwordHash : Option Nat
  installs : List Nat

/-- The stash, the bridge row, the time and the record. -/
structure Store where
  stash : Option Stash
  passwordHash : Option Nat
  certificate : Option Nat
  clock : Int
  codes : List Code
  installs : List Nat
  returned : List Nat
  handouts : List Handout

/-- How long a bundle may be claimed: 30 minutes, in seconds. -/
def provisionTTL : Int := 30 * 60

inductive Call where
  | generate (handler : Handler)
  | answer (nonce : Nat)
  | reread (nonce : Nat)
  | findStash (nonce : Nat)
  | expire (nonce : Nat)
  | setCredentials (handler : Handler) (stash : Stash)
  | setCertificate (handler : Handler) (stash : Stash)
  | mark (handler : Handler) (stash : Stash)
  | probe (stash : Stash)
  | blank (handler : Handler) (stash : Stash)
  | done

inductive Arrival where
  | provisionQR
  | provision
  | claimProvision (nonce : Nat)

/-- An operation: its time, and what the broker answers if it is the probe. A probe
that cannot run lets the bundle pass. -/
structure Op where
  now : Int
  live : Bool

variable (g : Store)

def arrive : Arrival → Option (Store × Call)
  | .provisionQR => some (g, .generate .claim)
  | .provision => some (g, .generate .direct)
  | .claimProvision nonce => some (g, .findStash nonce)

/-- `installStash`, from its check on. -/
def installStash (handler : Handler) (stash : Stash) (next : Call) : Call :=
  if stash.installed then next else .setCredentials handler stash

/-- What a call does once the bundle is installed: a claim asks the broker. -/
def afterInstall : Handler → Stash → Call
  | .claim, stash => .probe stash
  | .direct, stash => .blank .direct stash

def operate (live : Bool) : Call → Option (Store × Call)
  | .generate handler =>
    let nonce := g.codes.length
    some ({ g with
        stash := some ⟨nonce, g.clock, false⟩
        codes := g.codes ++ [⟨g.clock, decide (handler = .direct)⟩] },
      match handler with
      | .claim => .answer nonce
      | .direct => .reread nonce)
  | .answer nonce => some ({ g with returned := g.returned ++ [nonce] }, .done)
  | .reread _ =>
    -- whatever stash is there now
    match g.stash with
    | none => some (g, .done)
    | some stash => some (g, installStash .direct stash (afterInstall .direct stash))
  | .findStash nonce =>
    match g.stash with
    | none => some (g, .done)
    | some stash =>
      if stash.nonce ≠ nonce then some (g, .done)
      else if stash.createdAt + provisionTTL < g.clock then some (g, .expire nonce)
      else some (g, installStash .claim stash (afterInstall .claim stash))
  | .expire _ => some ({ g with stash := none }, .done)
  | .setCredentials handler stash =>
    some ({ g with
        passwordHash := some stash.nonce
        installs := g.installs ++ [stash.nonce] }, .setCertificate handler stash)
  | .setCertificate handler stash =>
    some ({ g with certificate := some stash.nonce }, .mark handler stash)
  | .mark handler stash =>
    some ({ g with stash := some { stash with installed := true } }, afterInstall handler stash)
  | .probe stash => some (g, if live then .blank .claim stash else .done)
  | .blank handler stash =>
    some ({ g with
        stash := none
        handouts := g.handouts ++ [⟨handler, stash.nonce, g.passwordHash, g.installs⟩] }, .done)
  | .done => none

/-- One operation of a call; time does not go back. -/
def perform (l : Call) (op : Op) : Option (Store × Call) :=
  if op.now < g.clock then none else operate { g with clock := op.now } op.live l

def handlers : Program Store Call Arrival Op := ⟨arrive, perform⟩

abbrev Hub := System Store Call

/-- No code has been generated. -/
def initial : Hub := ⟨⟨none, none, none, 0, [], [], [], []⟩, []⟩

/-- One operation of one call. -/
def step : Hub → Event Arrival Op → Option Hub := Interleaving.step handlers

def Handout.claimed (h : Handout) : Option Nat :=
  match h.handler with
  | .claim => some h.bundle
  | .direct => none

/-- The nonces that yielded a bundle, one entry for each successful claim. -/
def Store.claimed : List Nat := g.handouts.filterMap Handout.claimed

/-- Each nonce yields a bundle in at most one successful claim. -/
def ClaimedOnce : Prop := g.claimed.Nodup

instance (g : Store) : Decidable (ClaimedOnce g) := inferInstanceAs (Decidable (List.Nodup _))

def HandedInstalled : Prop :=
  ∀ h ∈ g.handouts, h.passwordHash = some h.bundle ∨ ∃ later ∈ h.installs, h.bundle < later

instance (g : Store) : Decidable (HandedInstalled g) :=
  inferInstanceAs (Decidable (∀ h ∈ g.handouts, _))

/-- The code is older than a claim accepts. -/
def Store.Expired (nonce : Nat) : Prop :=
  ∃ code ∈ g.codes[nonce]?, code.createdAt + provisionTTL < g.clock

def Store.Claimable (nonce : Nat) : Prop :=
  ∃ stash ∈ g.stash, stash.nonce = nonce ∧ g.clock ≤ stash.createdAt + provisionTTL

def StaysClaimable : Prop :=
  ∀ nonce ∈ g.returned,
    g.Claimable nonce ∨ nonce ∈ g.claimed ∨ g.Expired nonce ∨ nonce + 1 < g.codes.length

def Call.holding : Call → Option Stash
  | .setCredentials _ stash => some stash
  | .setCertificate _ stash => some stash
  | .mark _ stash => some stash
  | .probe stash => some stash
  | .blank _ stash => some stash
  | _ => none

/-- Some call is at work on the code. -/
def Hub.busy (s : Hub) (nonce : Nat) : Bool :=
  s.calls.any fun l => l.holding.any fun stash => stash.nonce == nonce

def Store.holds (nonce : Nat) : Bool :=
  g.stash.any fun stash => stash.nonce == nonce

/-- The order in which the properties hold. A call takes a code from the row only
while no other call is at work on it, and `Provision` only the code it has put
there; and a call writes the password hash or the stash only while the row still
holds the code it has taken. -/
def orderly (s : Hub) : Event Arrival Op → Bool
  | .start _ => true
  | .act i _ =>
    match s.calls[i]? with
    | some (.reread nonce) => s.shared.stash.isNone || s.shared.holds nonce && !s.busy nonce
    | some (.findStash nonce) => !s.shared.holds nonce || !s.busy nonce
    | some (.expire nonce) => s.shared.holds nonce
    | some (.setCredentials _ stash) => s.shared.holds stash.nonce
    | some (.mark _ stash) => s.shared.holds stash.nonce
    | some (.blank _ stash) => s.shared.holds stash.nonce
    | _ => true

end MeshsatHub.Provisioning
