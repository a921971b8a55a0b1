import Baseline.Error

/-!
# What a run asks of the outside

A batch and a sweep touch the world in five ways only: they move a file, delete a file, write a
line, read an answer and leave a note. `Outside m` bundles the five for a monad `m`, and everything
that decides is written against it. The same code then runs on real files and on values:

* over `StateM σ` the five are functions on a state of any shape, so a law about every mover is a
  law about every `σ`;
* `Desk` is the state that runs use here, and `Traced` keeps the order of all effects.
-/

namespace Baseline

/-- How grave a note is. -/
inductive Severity where
  /-- the run goes on, but something was left out -/
  | warn
  /-- something the user asked for cannot be had -/
  | error
deriving DecidableEq, Repr

/-- The parts of a run that leave notes. -/
inductive NoteSource where
  /-- accepting comparisons -/
  | batch
  /-- looking for files -/
  | scan
  /-- a session as a whole -/
  | session
  /-- the command line -/
  | command
deriving DecidableEq, Repr

/-- A line for the log. -/
structure Note where
  /-- how grave it is -/
  severity : Severity
  /-- which part of the run leaves it -/
  source : NoteSource
  /-- what it says -/
  text : String
deriving DecidableEq, Repr

/-- What a run asks of the outside. -/
structure Outside (m : Type → Type) where
  /-- moves a file onto another path, replacing what is there -/
  move : String → String → ExceptT IoError m Unit
  /-- removes a file; one that is gone already is no failure -/
  delete : String → ExceptT IoError m Unit
  /-- writes a line of a report -/
  say : String → ExceptT IoError m Unit
  /-- reads one answer, without its line ending -/
  ask : ExceptT IoError m String
  /-- leaves a note in the log -/
  note : Note → m Unit

namespace Outside

variable {m : Type → Type} [Monad m]

/-- Writes lines in order, up to the first that cannot be written. -/
def sayAll (o : Outside m) : List String → ExceptT IoError m Unit
  | [] => pure ()
  | line :: lines => do
    o.say line
    sayAll o lines

/-- Deletes files in order, up to the first that cannot be deleted. -/
def deleteAll (o : Outside m) : List String → ExceptT IoError m Unit
  | [] => pure ()
  | path :: paths => do
    o.delete path
    deleteAll o paths

end Outside

/-- A failure of the outside, as what ends the run. -/
def failing {m : Type → Type} [Monad m] {α : Type} (step : ExceptT IoError m α) :
    ExceptT Error m α :=
  step.adapt Error.io

end Baseline
