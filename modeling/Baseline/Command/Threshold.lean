import Baseline.Number.Digits
import Baseline.Outside

/-!
# How grave a note has to be

The user chooses by a word or a number how grave a note has to be to be shown.
-/

namespace Baseline.Command

/-- Which notes are grave enough. -/
inductive Threshold where
  /-- none -/
  | nothing
  /-- errors only -/
  | errors
  /-- all -/
  | everything
deriving DecidableEq, Repr

namespace Threshold

/-- The words that name a threshold. Those behind `warn` let no more notes through than it does. -/
def words : List (String × Threshold) :=
  [("off", nothing), ("error", errors), ("warn", everything), ("info", everything),
    ("debug", everything), ("trace", everything)]

/-- The threshold that a number names: the place among `words`. -/
def ofNumber? (n : Int) : Option Threshold :=
  match n with
  | .ofNat n => (words[n]?).map (·.2)
  | .negSucc _ => none

/-- The threshold that a text names. A number may have a plus, a word may be in any case. -/
def ofText? (cs : List Char) : Option Threshold :=
  match signedValue? cs with
  | some n => if cs.head? == some '-' then none else ofNumber? n
  | none => words.lookup (String.ofList (cs.map Char.toLower))

/-- Whether a note of a severity is grave enough. -/
def admits : Threshold → Severity → Bool
  | nothing, _ => false
  | errors, s => s == .error
  | everything, _ => true

end Threshold

end Baseline.Command
