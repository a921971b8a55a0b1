import Baseline.Failure
import Baseline.Glob.Pattern
import Baseline.Path

/-!
# Top-level errors

The failures that end a run. A move that fails is not among them: it is data in the outcome of a
batch. `Error.message` is all that a reader ever sees of one.
-/

namespace Baseline

/-- What ends a run. -/
inductive Error where
  /-- the outside world failed: the output, the answers, or a deletion -/
  | io (cause : IoError)
  /-- a directory could not be walked -/
  | walk (path : Path) (cause : IoError)
  /-- the name pattern is no pattern -/
  | pattern (cause : Glob.PatternError)
  /-- a log could not be read -/
  | unreadableLog (path : Path) (cause : IoError)
  /-- a line of the comparison log is no record -/
  | malformedRecord (lineNumber : Nat) (line : String)
deriving DecidableEq, Repr

/-- How a walk reports a failure at a path. -/
def walkFailure (path : Path) (cause : IoError) : String :=
  "IO error for operation on " ++ path.display ++ ": " ++ cause.text

/-- What a reader sees of the error. -/
def Error.message : Error → String
  | io cause => "IO error: " ++ cause.text
  | walk path cause => "Directory walk error: " ++ walkFailure path cause
  | pattern cause => "Invalid glob pattern: " ++ cause.message
  | unreadableLog path cause => "Unable to read log " ++ path.display ++ ": " ++ cause.text
  | malformedRecord lineNumber line =>
    "Malformed comparison on line " ++ toString lineNumber ++ ": '" ++ line ++
      "' (expected '<received> -> <approved>')"

end Baseline
