import Baseline.Command.Threshold
import Baseline.Number.Binary64
import Baseline.Text.CharClass
import Baseline.Text.RegularExpression
import Baseline.Text.Split

/-!
# Which notes are shown

The user says which notes to show by directives with commas between them. A directive is a
threshold, or the name of a part of the program, or both as `part=threshold`; a part stands for all
parts whose names begin with its name. In brackets a directive may ask for a surrounding activity,
`part[activity{field}]=threshold`, and for a field of the note.

Of the directives that concern a note the most specific decides, and of equals the last
(`NoteFilter.deciding?`). A directive that does not read is passed over, and the user is told.
-/

namespace Baseline.Command

/-- The name of a source of notes. -/
def sourceName : NoteSource → String
  | .batch => "approvals_core::approver"
  | .scan => "approvals_core::scanner"
  | .session => "approvals_core::engine"
  | .command => "approvals"

/-- The one field that every note has. -/
def noteField : String := "message"

/-! ## Directives -/

/-- What is asked of a note before a threshold applies to it. -/
structure Directive where
  /-- how the name of its source begins -/
  source : Option String
  /-- a field that it has -/
  field : Option String
  /-- how grave it has to be -/
  threshold : Threshold
deriving DecidableEq, Repr

namespace Directive

/-- Whether the directive has a say on notes from a source. -/
def concerns (d : Directive) (source : NoteSource) : Bool :=
  d.source.all (fun s => s.toList.isPrefixOf (sourceName source).toList) &&
    d.field.all (· == noteField)

/-- How specific the directive is: first by the name of the source, then by the field. -/
def specificity (d : Directive) : Nat :=
  2 * (d.source.elim 0 (·.length + 1)) + (if d.field.isSome then 1 else 0)

/-- Why a directive does not read. -/
inductive Failure where
  /-- it is not put together as directives are -/
  | malformed
  /-- its threshold is none -/
  | noThreshold
  /-- the value of its field is no regular expression -/
  | badPattern
deriving DecidableEq, Repr

/-- What the user is told. -/
def Failure.message : Failure → String
  | malformed => "invalid filter directive"
  | noThreshold =>
    "error parsing level filter: expected one of \"off\", \"error\", \"warn\", \"info\", " ++
      "\"debug\", \"trace\", or a number 0-5"
  | badPattern => "invalid field filter: error building NFA"

/-! ## Reading -/

/-- A place in a directive. Blanks around a directive do not count when its parts are told apart,
but they do count when the parts are cut out: the `mark` tells where a part ends, and the `read`
character is what goes into it. -/
structure Cell where
  /-- the character that ends a part or not -/
  mark : Char
  /-- the character that is cut out -/
  read : Char
deriving DecidableEq, Repr

/-- The characters that some cells cut out. -/
def cut (cells : List Cell) : List Char := cells.map (·.read)

/-- The characters without blanks around them. -/
def trimmed (cs : List Char) : List Char :=
  ((cs.dropWhile CharClass.isBlank).reverse.dropWhile CharClass.isBlank).reverse

/-- Whether a directive may start with a character, if not with a bracket. -/
def startsName (c : Char) : Bool := c == '-' || c == ':' || c == '_' || CharClass.isWord c

/-- The threshold behind an equals sign. Where nothing is written, all is let through. -/
def readThreshold (cs : List Char) : Except Failure Threshold :=
  if cs.isEmpty then .ok .everything
  else
    match Threshold.ofText? cs with
    | some t => .ok t
    | none => .error .noThreshold

/-- What follows the closing bracket: nothing, or a threshold, which runs on to the `tail`. -/
def readBehind (tail : List Char) : List Cell → Except Failure Threshold
  | [] => .ok .everything
  | cell :: cells => if cell.mark = '=' then readThreshold (cut cells ++ tail) else .error .malformed

/-- A field with a value, perhaps: its name, and whether there is a value. A value is a number, or a
regular expression, up to the next equals sign. -/
def readField (cs : List Char) : Except Failure (String × Bool) :=
  match splitWhere (· == '=') cs with
  | name :: value :: _ =>
    if (Binary64.ofText? value).isSome || RegularExpression.isWellFormed (String.ofList value) then
      .ok (String.ofList name, true)
    else .error .badPattern
  | pieces => .ok (String.ofList pieces.flatten, false)

/-- What follows an opening bracket. A directive that asks for an activity, or for a value of a
field, has no say on notes, which stand for themselves: it is read, but it is none. -/
def readBracket (source : Option String) (tail : List Char) (cells : List Cell) :
    Except Failure (Option Directive) :=
  let activity := cells.takeWhile fun cell => cell.mark != ']' && cell.mark != '\x7b'
  match cells.drop activity.length with
  | [] => .error .malformed
  | bracket :: cells =>
    if bracket.mark = ']' then do
      let _ ← readBehind tail cells
      return none
    else
      let field := cells.takeWhile fun cell => cell.mark != '\x7d'
      match cells.drop field.length with
      | [] => .error .malformed
      | _ :: cells => do
        if field.isEmpty then throw .malformed
        let (name, hasValue) ← readField (cut field)
        match cells with
        | [] => throw .malformed
        | cell :: cells =>
          if cell.mark ≠ ']' then throw .malformed
          let threshold ← readBehind tail cells
          return if activity.isEmpty && !hasValue then some ⟨source, some name, threshold⟩ else none

/-- Reads a directive. -/
def read (text : List Char) : Except Failure (Option Directive) :=
  let marks := trimmed text
  let cells := marks.zipWith Cell.mk text
  let tail := text.drop marks.length
  match cells with
  | [] => .error .malformed
  | first :: more =>
    if first.mark = '[' then readBracket none tail more
    else if !startsName first.mark then .error .malformed
    else
      let head := cells.takeWhile fun cell => cell.mark != '=' && cell.mark != '['
      let source := some (String.ofList (cut head))
      match cells.drop head.length with
      | [] =>
        match Threshold.ofText? text with
        | some threshold => .ok (some ⟨none, none, threshold⟩)
        | none => .ok (some ⟨some (String.ofList text), none, .everything⟩)
      | cell :: cells =>
        if cell.mark = '[' then readBracket source tail cells
        else do
          let threshold ← readThreshold (cut cells ++ tail)
          return some ⟨source, none, threshold⟩

end Directive

/-! ## Filters -/

/-- Which notes are shown. -/
structure NoteFilter where
  /-- the directives that have a say, in order -/
  directives : List Directive
  /-- what did not read, and why -/
  refused : List (String × Directive.Failure)
deriving DecidableEq, Repr

namespace NoteFilter

/-- The filter that a text asks for. One without any directive shows errors. -/
def ofText (text : String) : NoteFilter :=
  let pieces := (splitWhere (· == ',') text.toList).filter (!·.isEmpty)
  let readings := pieces.map fun piece => (String.ofList piece, Directive.read piece)
  let accepted := readings.filterMap fun (_, reading) => reading.toOption
  let refused := readings.filterMap fun (piece, reading) =>
    match reading with
    | .ok _ => none
    | .error e => some (piece, e)
  ⟨if accepted.isEmpty then [⟨none, none, .errors⟩] else accepted.filterMap id, refused⟩

/-- The more specific of two directives, where the first may be missing; of equals the second. -/
def prefer (best : Option Directive) (d : Directive) : Option Directive :=
  match best with
  | none => some d
  | some b => if b.specificity ≤ d.specificity then some d else some b

/-- The directive that decides on notes from a source. -/
def deciding? (f : NoteFilter) (source : NoteSource) : Option Directive :=
  (f.directives.filter (·.concerns source)).foldl prefer none

/-- Whether a note is shown. -/
def shows (f : NoteFilter) (n : Note) : Bool :=
  (f.deciding? n.source).any (·.threshold.admits n.severity)

/-- What the user is told of the directives that did not read. -/
def complaints (f : NoteFilter) : List String :=
  f.refused.map fun (piece, e) => "ignoring `" ++ piece ++ "`: " ++ e.message

end NoteFilter

end Baseline.Command
