import Baseline.Outside
import Baseline.Text.Line

/-!
# The outside as a value

A `Desk` is all of the outside that a run can see: a store of files, answers still to be read, and
how many lines the output will still take. A `Traced` state keeps, beside it, every effect in the
order in which it happened; the reports, the notes and the counts that a caller wants are views of
that one list.
-/

namespace Baseline

/-! ## Answers -/

/-- Prepared answers, read one by one. -/
structure Script where
  /-- the answers left -/
  left : List String
deriving DecidableEq, Repr

/-- The next prepared answer. -/
def Script.next : ExceptT IoError (StateM Script) String := do
  match (← get).left with
  | [] => throw .scriptEnded
  | answer :: left =>
    set (Script.mk left)
    return answer

/-- A standard input: the bytes not read yet. -/
structure Input where
  /-- the bytes left -/
  left : Bytes
deriving DecidableEq, Repr

/-- The next line of the input. A line that is not UTF-8 is used up and refused. -/
def Input.next : ExceptT IoError (StateM Input) String := do
  let (taken, left) := Line.next (← get).left
  set (Input.mk left)
  match taken with
  | .ended => throw .inputClosed
  | .illFormed => throw .notText
  | .line text => return text

/-! ## The desk -/

/-- The outside of a run: a store `σ` and a source of answers `ι`. -/
structure Desk (σ ι : Type) where
  /-- what moves and deletions act on -/
  store : σ
  /-- where answers come from -/
  answers : ι
  /-- how many lines the output still takes, if there is a limit -/
  room : Option Nat
deriving DecidableEq, Repr

namespace Desk

variable {σ ι : Type} {α : Type}

/-- Runs a step on the store alone. -/
def onStore (step : StateM σ α) : StateM (Desk σ ι) α := do
  let d ← get
  let (a, store) := step.run d.store
  set { d with store := store }
  return a

/-- Runs a step on the answers alone. -/
def onAnswers (step : StateM ι α) : StateM (Desk σ ι) α := do
  let d ← get
  let (a, answers) := step.run d.answers
  set { d with answers := answers }
  return a

/-- Writes a line if there is room. Without room the line is lost and there is still none, so a
closed output stays closed. -/
def say (_line : String) : ExceptT IoError (StateM (Desk σ ι)) Unit := do
  let d ← get
  match d.room with
  | none => return ()
  | some 0 => throw .outputClosed
  | some (n + 1) => set { d with room := some n }

/-- A desk as the outside of a run. Its notes go nowhere. -/
def outside (move : String → String → ExceptT IoError (StateM σ) Unit)
    (delete : String → ExceptT IoError (StateM σ) Unit) (ask : ExceptT IoError (StateM ι) String) :
    Outside (StateM (Desk σ ι)) where
  move received approved := ExceptT.mk (onStore (move received approved).run)
  delete path := ExceptT.mk (onStore (delete path).run)
  say := say
  ask := ExceptT.mk (onAnswers ask.run)
  note _ := pure ()

end Desk

/-! ## The trace -/

/-- An effect. -/
inductive Event where
  /-- a line was written -/
  | said (line : String)
  /-- an answer was wanted, whether or not one came -/
  | asked
  /-- a move was tried -/
  | moving (received approved : String)
  /-- a deletion was tried -/
  | deleting (path : String)
  /-- a note was left -/
  | noted (note : Note)
  /-- text was written that is no line of a report -/
  | printed (text : String)
  /-- a line was written on the error output -/
  | complained (line : String)
deriving DecidableEq, Repr

namespace Event

/-- The line that was written. -/
def line? : Event → Option String
  | said line => some line
  | _ => none

/-- The move that was tried. -/
def move? : Event → Option (String × String)
  | moving received approved => some (received, approved)
  | _ => none

/-- The deletion that was tried. -/
def deletion? : Event → Option String
  | deleting path => some path
  | _ => none

/-- The note that was left. -/
def note? : Event → Option Note
  | noted note => some note
  | _ => none

/-- What appeared on the output. -/
def output? : Event → Option String
  | said line => some (line ++ "\n")
  | printed text => some text
  | _ => none

/-- What appeared on the error output. -/
def errorOutput? : Event → Option String
  | complained line => some (line ++ "\n")
  | _ => none

end Event

/-- A state with everything that happened to it, the first effect first. -/
structure Traced (δ : Type) where
  /-- the state now -/
  state : δ
  /-- what happened -/
  events : List Event
deriving DecidableEq, Repr

namespace Traced

variable {δ : Type} {α : Type}

/-- Nothing has happened yet. -/
def start (state : δ) : Traced δ := ⟨state, []⟩

/-- Records an effect. -/
def record (e : Event) : StateM (Traced δ) Unit :=
  modify fun t => { t with events := t.events ++ [e] }

/-- Runs a step on the state alone. -/
def onState (step : StateM δ α) : StateM (Traced δ) α := do
  let t ← get
  let (a, state) := step.run t.state
  set { t with state := state }
  return a

/-- An outside that keeps its trace: every request as it is made, a line only once it is written. -/
def outside (o : Outside (StateM δ)) : Outside (StateM (Traced δ)) where
  move received approved := do
    ExceptT.lift (record (.moving received approved))
    ExceptT.mk (onState (o.move received approved).run)
  delete path := do
    ExceptT.lift (record (.deleting path))
    ExceptT.mk (onState (o.delete path).run)
  say line := do
    ExceptT.mk (onState (o.say line).run)
    ExceptT.lift (record (.said line))
  ask := do
    ExceptT.lift (record .asked)
    ExceptT.mk (onState o.ask.run)
  note n := do
    record (.noted n)
    onState (o.note n)

/-- The lines written, in order. -/
def lines (t : Traced δ) : List String := t.events.filterMap Event.line?

/-- The moves tried, in order. -/
def moves (t : Traced δ) : List (String × String) := t.events.filterMap Event.move?

/-- The deletions tried, in order. -/
def deletions (t : Traced δ) : List String := t.events.filterMap Event.deletion?

/-- The notes left, in order. -/
def notes (t : Traced δ) : List Note := t.events.filterMap Event.note?

/-- All that appeared on the output. -/
def output (t : Traced δ) : String := String.join (t.events.filterMap Event.output?)

/-- All that appeared on the error output. -/
def errorOutput (t : Traced δ) : String := String.join (t.events.filterMap Event.errorOutput?)

/-- How often an answer was wanted. -/
def timesAsked (t : Traced δ) : Nat := t.events.count .asked

end Traced

end Baseline
