import Baseline.Error

/-!
# Pending comparisons

A test that got something else than its baseline leaves a line `<received> -> <approved>` in the
comparison log. A line is a record if the arrow stands in it exactly once; anything else is refused
with its number and its text, and one refused line refuses the whole log.
-/

namespace Baseline

/-- A pending comparison: what a test received, and the baseline it should become. The two paths
are held as text. They come out of a line of the log, so no bytes of theirs are lost by that. -/
structure Comparison where
  /-- the file the test wrote -/
  received : String
  /-- the baseline it replaces -/
  approved : String
deriving DecidableEq, Repr

namespace Comparison

/-- What stands between the two paths. -/
def arrow : List Char := [' ', '-', '>', ' ']

/-- Cuts at the first arrow: what stands before it and what stands behind. -/
def cutAtArrow : List Char → Option (List Char × List Char)
  | [] => none
  | c :: cs =>
    if arrow <+: c :: cs then some ([], (c :: cs).drop arrow.length)
    else (cutAtArrow cs).map fun (before, behind) => (c :: before, behind)

/-- Reads a line of the log, given its number. -/
def parse (lineNumber : Nat) (line : String) : Except Error Comparison :=
  match cutAtArrow line.toList with
  | some (received, approved) =>
    match cutAtArrow approved with
    | some _ => .error (.malformedRecord lineNumber line)
    | none => .ok ⟨String.ofList received, String.ofList approved⟩
  | none => .error (.malformedRecord lineNumber line)

/-- Reads lines, the first of which has the given number. The first bad line wins. -/
def parseFrom (lineNumber : Nat) : List String → Except Error (List Comparison)
  | [] => .ok []
  | line :: lines => do
    let c ← parse lineNumber line
    let cs ← parseFrom (lineNumber + 1) lines
    return c :: cs

/-- Reads a whole log. -/
def parseAll (lines : List String) : Except Error (List Comparison) := parseFrom 1 lines

/-- The line of a comparison. -/
def line (c : Comparison) : String := c.received ++ String.ofList arrow ++ c.approved

end Comparison

end Baseline
