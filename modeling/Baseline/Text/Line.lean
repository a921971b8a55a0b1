import Baseline.Text.Utf8

/-!
# Lines

Logs and answers come as lines that end in LF or CR LF. The CR belongs to the ending only where an
LF follows: a CR at the very end of the text, or inside a line, is text.

* `Line.all` cuts a whole text into its lines;
* `Line.next` takes the first line off a stream of bytes.
-/

namespace Baseline.Line

/-- Drops one CR from the end. -/
def dropReturn (cs : List Char) : List Char :=
  if cs.getLast? = some '\r' then cs.dropLast else cs

/-- The lines among the pieces between line feeds: all pieces but the last were ended by a line
feed, and the last is a line only if it holds anything. -/
def ofPieces : List (List Char) → List (List Char)
  | [] => []
  | [last] => if last.isEmpty then [] else [last]
  | piece :: more => dropReturn piece :: ofPieces more

/-- The lines of a text, without their endings. -/
def all (text : String) : List String :=
  (ofPieces (splitWhere (· == '\n') text.toList)).map String.ofList

/-- What reading one line off a stream finds. -/
inductive Taken where
  /-- nothing is left -/
  | ended
  /-- the line is not UTF-8; it is gone all the same -/
  | illFormed
  /-- a line, without its ending -/
  | line (text : String)
deriving DecidableEq, Repr

/-- Takes the first line off a stream, and gives what is left. The bytes up to the first LF are
used up whether or not they are text. -/
def next (bs : Bytes) : Taken × Bytes :=
  match bs with
  | [] => (.ended, [])
  | _ :: _ =>
    let body := bs.takeWhile (· != 10)
    let rest := bs.dropWhile (· != 10)
    let taken :=
      match Utf8.decode? body with
      | none => .illFormed
      | some s => .line (if rest.isEmpty then s else String.ofList (dropReturn s.toList))
    (taken, rest.drop 1)

end Baseline.Line
