import Baseline.Command.NoteFilter
import Baseline.Text.Quoted

/-!
# Notes as lines

A note takes one line on the error output, and one in the log file, where its source stands too.
-/

namespace Baseline.Command

/-- The word for a severity, five characters wide. -/
def severityWord : Severity → String
  | .warn => " WARN"
  | .error => "ERROR"

/-- A character of a note, spelled out if it could take command of a terminal: bell, backspace, form
feed, escape, delete, and the controls above them. -/
def harmless (c : Char) : List Char :=
  if c = '\x07' ∨ c = '\x08' ∨ c = '\x0c' ∨ c = '\x1b' ∨ c = '\x7f' then
    '\\' :: 'x' :: (if c.toNat < 16 then ['0'] else []) ++ Quoted.hexText c.toNat
  else if 0x80 ≤ c.toNat ∧ c.toNat ≤ 0x9f then ['\\', 'u', '{'] ++ Quoted.hexText c.toNat ++ ['}']
  else [c]

/-- The text of a note without harm. -/
def harmlessText (n : Note) : String := String.ofList (n.text.toList.flatMap harmless)

/-- The line of a note on the error output. -/
def noteLine (n : Note) : String := severityWord n.severity ++ " " ++ harmlessText n

/-- The line of a note in the log file. -/
def logLine (n : Note) : String :=
  severityWord n.severity ++ " " ++ sourceName n.source ++ ": " ++ harmlessText n ++ "\n"

end Baseline.Command
