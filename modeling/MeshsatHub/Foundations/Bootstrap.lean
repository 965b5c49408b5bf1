import MeshsatHub.Foundations.Runs

/-!
# Loading or generating values in a shared store

Processes that start over one store load a number of values, each kept in one row or in two; where a
value is not all there, the loader makes one and writes it. Every read and write may fail, a write
with or without effect. `careful` is what such a start needs for the stored values to last.
-/

namespace MeshsatHub.Bootstrap
open Runs

structure Loader (R : Type*) where
  first : R
  second : Option R
  /-- Reads the second row though the first one was not found. -/
  readOn : Bool
  /-- Writes the second row though writing the first one failed. -/
  writeOn : Bool
  /-- Uses a value it could not store. -/
  keeps : Bool
  /-- Looks for a copy outside the store before it makes a value. -/
  copies : Bool
  distinct : second ≠ some first
  deriving DecidableEq

namespace Loader
variable {R : Type*}

def rows (l : Loader R) : List R := l.first :: l.second.toList

/-- The row that is written last. -/
def last (l : Loader R) : R := l.second.getD l.first

end Loader

/-- The operation a process is about to make. -/
inductive Stage (R V : Type*) where
  | readFirst (l : Loader R)
  | readSecond (l : Loader R) (row : R) (found : Option V)
  | making (l : Loader R)
  | writeFirst (l : Loader R) (v : V) (keeps : Bool)
  | writeSecond (l : Loader R) (row : R) (v : V) (keeps ok : Bool)
  | started
  | stopped
  deriving DecidableEq

structure Process (R V : Type*) where
  stage : Stage R V
  /-- The loaders after the present one. -/
  rest : List (Loader R)
  holds : R → Option V
  /-- One of its own operations failed. -/
  failed : Bool

structure System (R V : Type*) where
  rows : R → Option V
  processes : List (Process R V)

/-- How an operation ends. -/
inductive Outcome where
  | ok
  | failed
  | failedAfter
  deriving DecidableEq

def Outcome.isOk : Outcome → Bool
  | .ok => true
  | _ => false

inductive Event (V : Type*) where
  | start
  | run (i : Nat) (outcome : Outcome)
  /-- Process `i` makes a value, or takes it from a copy outside the store. -/
  | make (i : Nat) (v : V) (copied : Bool)
  | stop (i : Nat)

variable {R V : Type*} [DecidableEq R]

namespace Process

variable (p : Process R V)

/-- Go on to the next loader. -/
def enter : Process R V :=
  match p.rest with
  | [] => { p with stage := .started }
  | l :: rest => { p with stage := .readFirst l, rest := rest }

/-- Use the values of the rows and go on. -/
def take (l : Loader R) (v₁ v₂ : Option V) : Process R V :=
  enter
    { p with
      holds := fun r =>
        if r = l.first then v₁ else if l.second = some r then v₂ else p.holds r }

/-- Use a value made, or go on without one. -/
def settle (l : Loader R) (v : V) (used : Bool) : Process R V :=
  if used then p.take l (some v) (some v) else p.enter

def goTo (stage : Stage R V) : Process R V := { p with stage := stage }

def note (outcome : Outcome) : Process R V :=
  { p with failed := p.failed || !outcome.isOk }

end Process

variable (rows : R → Option V)

def readRow (row : R) (outcome : Outcome) : Option V :=
  if outcome.isOk then rows row else none

def writeRow (row : R) (v : V) (outcome : Outcome) : R → Option V :=
  if outcome = .failed then rows else Function.update rows row (some v)

def Process.advance (p : Process R V) (outcome : Outcome) : (R → Option V) × Process R V :=
  match p.stage with
  | .readFirst l =>
    let found := readRow rows l.first outcome
    match l.second with
    | none =>
      (rows, if found.isSome then (p.note outcome).take l found none
        else (p.note outcome).goTo (.making l))
    | some row =>
      (rows, if found.isSome || l.readOn then (p.note outcome).goTo (.readSecond l row found)
        else (p.note outcome).goTo (.making l))
  | .readSecond l row found =>
    let found' := readRow rows row outcome
    (rows, if found.isSome && found'.isSome then (p.note outcome).take l found found'
      else (p.note outcome).goTo (.making l))
  | .writeFirst l v keeps =>
    (writeRow rows l.first v outcome,
      match l.second with
      | none => (p.note outcome).settle l v (outcome.isOk || keeps)
      | some row =>
        if outcome.isOk || l.writeOn then
          (p.note outcome).goTo (.writeSecond l row v keeps outcome.isOk)
        else (p.note outcome).settle l v keeps)
  | .writeSecond l row v keeps ok =>
    (writeRow rows row v outcome, (p.note outcome).settle l v ((ok && outcome.isOk) || keeps))
  | .making _ => (rows, p)
  | .started => (rows, p)
  | .stopped => (rows, p)

def Process.busyWith (p : Process R V) : Option (Loader R) :=
  match p.stage with
  | .readSecond l _ _ => some l
  | .making l => some l
  | .writeFirst l _ _ => some l
  | .writeSecond l _ _ _ _ => some l
  | _ => none

def Process.waiting (p : Process R V) : Bool :=
  match p.stage with
  | .making _ => false
  | .started => false
  | .stopped => false
  | _ => true

variable (loaders : List (Loader R))

def newProcess : Process R V :=
  Process.enter ⟨.stopped, loaders, fun _ => none, false⟩

variable (s : System R V)

def step : Event V → Option (System R V)
  | .start => some { s with processes := s.processes ++ [newProcess loaders] }
  | .run i outcome =>
    match s.processes[i]? with
    | none => none
    | some p =>
      if p.waiting then
        let (rows, p') := p.advance s.rows outcome
        some ⟨rows, s.processes.set i p'⟩
      else none
  | .make i v copied =>
    match s.processes[i]? with
    | some ⟨.making l, rest, holds, failed⟩ =>
      if copied && !l.copies then none
      else
        some { s with
          processes := s.processes.set i
            ⟨.writeFirst l v (l.keeps || copied), rest, holds, failed⟩ }
    | _ => none
  | .stop i =>
    match s.processes[i]? with
    | none => none
    | some p => some { s with processes := s.processes.set i { p with stage := .stopped } }

def stored (l : Loader R) : Bool := l.rows.all fun r => (rows r).isSome

/-- No process besides `i` is in the middle of the loader. -/
def System.alone (i : Nat) (l : Loader R) : Bool :=
  (s.processes.eraseIdx i).all fun p => p.busyWith ≠ some l

/-- No read of a stored row fails; a first row is not lost by a loader that goes
on to the second one; a value not stored in full is loaded by one process at a
time. -/
def careful : Event V → Bool
  | .run i outcome =>
    match (s.processes[i]?).map Process.stage with
    | some (.readFirst l) =>
      (outcome.isOk || (s.rows l.first).isNone) && (stored s.rows l || s.alone i l)
    | some (.readSecond _ row _) => outcome.isOk || (s.rows row).isNone
    | some (.writeFirst l _ _) => outcome ≠ .failed || l.second.isNone || !l.writeOn
    | _ => true
  | _ => true

end MeshsatHub.Bootstrap
