import Baseline.Settings.Value
import Baseline.Toml.Moment

/-!
# TOML data

What stands in a TOML document (`Datum`), and what it means as a setting (`Datum.value?`). Settings
have no moments of time, so a moment becomes its text. A moment may also be written as a table: one
whose first entry has the name `momentKey` stands for the moment that the entry spells, and its
other entries do not count.
-/

namespace Baseline.Toml

/-- What stands in a document. -/
inductive Datum where
  /-- a text -/
  | text (s : String)
  /-- a date, a time, or both -/
  | moment (m : Moment)
  /-- an integer -/
  | whole (n : Int)
  /-- a floating point number -/
  | real (x : Binary64)
  /-- true or false -/
  | truth (b : Bool)
  /-- a list -/
  | list (items : List Datum)
  /-- a table, its entries in the order in which they were written -/
  | table (entries : List (String × Datum))

namespace Datum

/-- The name of the entry that makes a table a moment. -/
def momentKey : String := "$__toml_private_datetime"

/-- The moment that an entry under `momentKey` spells. -/
def spelledMoment? : Datum → Option Moment
  | text s => Moment.ofText? s
  | _ => none

/-- The entry that makes a table a moment, if it is one. -/
def momentEntry? : List (String × Datum) → Option Datum
  | [] => none
  | (name, d) :: _ => if name == momentKey then some d else none

mutual

/-- What a datum means as a setting, unless it holds a table that should be a moment and spells
none. -/
def value? : Datum → Option Value
  | text s => some (.atom none (.text s))
  | moment m => some (.atom none (.text m.text))
  | whole n => some (.atom none (.whole n))
  | real x => some (.atom none (.real x))
  | truth b => some (.atom none (.truth b))
  | list items => (valueItems? items).map (.list none)
  | table entries =>
    match momentEntry? entries with
    | some d => d.spelledMoment?.map fun m => .atom none (.text m.text)
    | none => (valueEntries? entries).map (.table none)

/-- What the items of a list mean. -/
def valueItems? : List Datum → Option (List Value)
  | [] => some []
  | d :: ds => do
    let v ← d.value?
    let vs ← valueItems? ds
    return v :: vs

/-- What the entries of a table mean. -/
def valueEntries? : List (String × Datum) → Option (List (String × Value))
  | [] => some []
  | (name, d) :: ds => do
    let v ← d.value?
    let vs ← valueEntries? ds
    return (name, v) :: vs

end

end Datum

end Baseline.Toml
