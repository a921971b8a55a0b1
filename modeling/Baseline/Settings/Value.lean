import Baseline.Number.Binary64
import Baseline.Text.Quoted

/-!
# Setting values

What a settings file or the environment says: atoms, lists and tables, each with the place it comes
from, so that a message about it can name the place.
-/

namespace Baseline

/-- Where a value comes from. -/
inductive Origin where
  /-- a file -/
  | file (name : String)
  /-- an environment variable -/
  | environment
deriving DecidableEq, Repr

/-- The origin for a reader. -/
def Origin.text : Origin → String
  | file name => name
  | environment => "the environment"

/-- A value without parts. -/
inductive Atom where
  /-- no value -/
  | nothing
  /-- true or false -/
  | truth (b : Bool)
  /-- an integer -/
  | whole (n : Int)
  /-- a floating point number -/
  | real (x : Binary64)
  /-- a text -/
  | text (s : String)
deriving DecidableEq, Repr

/-- A value. The entries of a table have different names. -/
inductive Value where
  /-- a value without parts -/
  | atom (origin : Option Origin) (a : Atom)
  /-- a list of values -/
  | list (origin : Option Origin) (items : List Value)
  /-- values by name -/
  | table (origin : Option Origin) (entries : List (String × Value))
deriving Repr

instance : Inhabited Value := ⟨.atom none .nothing⟩

namespace Value

/-- Where the value comes from. -/
def origin : Value → Option Origin
  | atom o _ => o
  | list o _ => o
  | table o _ => o

/-- What a message calls a value that is not what was expected. -/
def description : Value → String
  | atom _ .nothing => "unit value"
  | atom _ (.truth b) => "boolean `" ++ (if b then "true" else "false") ++ "`"
  | atom _ (.whole n) => "integer `" ++ toString n ++ "`"
  | atom _ (.real x) => "floating point `" ++ x.pointedText ++ "`"
  | atom _ (.text s) => "string " ++ Quoted.encode s
  | list _ _ => "sequence"
  | table _ _ => "map"

mutual

/-- The value as it comes from a place, with all its parts. -/
def placed (o : Origin) : Value → Value
  | atom _ a => atom (some o) a
  | list _ items => list (some o) (placedItems o items)
  | table _ entries => table (some o) (placedEntries o entries)

/-- The values of a list as they come from a place. -/
def placedItems (o : Origin) : List Value → List Value
  | [] => []
  | v :: vs => placed o v :: placedItems o vs

/-- The entries of a table as they come from a place. -/
def placedEntries (o : Origin) : List (String × Value) → List (String × Value)
  | [] => []
  | (k, v) :: es => (k, placed o v) :: placedEntries o es

end

end Value

end Baseline
