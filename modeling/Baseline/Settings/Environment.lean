import Baseline.Settings.KeyPath
import Baseline.Text.Split

/-!
# Settings in the environment

Every variable whose name starts with `APPROVALS_`, in any case, is a setting. Its text is read as a
truth value, an integer or a floating point number if it is one; only then is the list of ignore
patterns cut at its commas.
-/

namespace Baseline.Environment

/-- How the names of settings start. -/
def opening : String := "approvals_"

/-- The setting whose text is a list. -/
def listKey : String := "ignore_patterns"

/-- A text cut at its commas. -/
def commaList (text : String) : List Value :=
  (splitWhere (· == ',') text.toList).map fun piece => .atom none (.text (String.ofList piece))

/-- What a text says by itself. -/
def readAtom? (text : String) : Option Atom :=
  let word := Value.folded text
  if word == "true" then some (.truth true)
  else if word == "false" then some (.truth false)
  else
    match (signedValue? text.toList).filter fits64 with
    | some n => some (.whole n)
    | none => (Binary64.ofText? text.toList).map .real

/-- What a text says as the value of a setting. -/
def readValue (key text : String) : Value :=
  match readAtom? text with
  | some a => .atom none a
  | none => if key == listKey then .list none (commaList text) else .atom none (.text text)

/-- The setting that a variable makes, if its name is one. -/
def setting? (name text : String) : Option (String × Value) :=
  let name := Value.folded name
  if opening.toList.isPrefixOf name.toList then
    let key := String.ofList (name.toList.drop opening.length)
    some (key, (readValue key text).placed .environment)
  else none

/-- The settings that an environment makes. Of two for one key the later counts. -/
def settings (environment : List (String × String)) : List (String × Value) :=
  (environment.filterMap fun (name, text) => setting? name text).foldl
    (fun es (key, v) => Value.put key v es) []

end Baseline.Environment
