import Baseline.Settings.Value
import Baseline.Text.Lowercase
import Baseline.Text.Reader

/-!
# Key paths

A key may lead into a table or a list: `a.b` is the entry `b` of the table `a`, and `a[2]` the third
item of the list `a`. A key that does not read as such a path is a plain name. Case does not count
in names.

`KeyPath.set` writes a value at a path. What stands in the way gives way, what is missing is made,
and a table is not replaced by a table but merged with it.
-/

namespace Baseline

/-- One step into a value. -/
inductive KeyStep where
  /-- to the entry of a table -/
  | name (n : String)
  /-- to the item of a list; a negative index counts from the end -/
  | index (i : Int)
deriving DecidableEq, Repr

/-- A way into a value. -/
structure KeyPath where
  /-- the steps, the first of which is a name -/
  steps : List KeyStep
deriving DecidableEq, Repr

namespace KeyPath

open Reader

/-- The characters of a name. -/
def isNameChar (c : Char) : Bool := c.isAlphanum || c == ' ' || c == '_' || c == '-'

/-- A name. -/
def readName : Reader KeyStep := do
  return .name (String.ofList (← takeWhile1 isNameChar))

/-- An index, which blanks may surround. -/
def readIndex : Reader KeyStep := do
  let _ ← takeWhile fun c => c == ' ' || c == '\t'
  let minus ← maybe (char '-')
  let ds ← takeWhile1 Char.isDigit
  let _ ← takeWhile fun c => c == ' ' || c == '\t'
  let i : Int := if minus.isSome then -(digitsValue ds : Int) else digitsValue ds
  if fits64 i then return .index i else failure

/-- One more step. -/
def readStep : Reader KeyStep :=
  (do char '.'; readName) <|> (do char '['; let step ← readIndex; char ']'; return step)

/-- Reads a key. -/
def ofKey (key : String) : KeyPath :=
  match whole (do let first ← readName; let more ← many readStep; return first :: more)
    key.toList with
  | some steps => ⟨steps⟩
  | none => ⟨[.name key]⟩

end KeyPath

namespace Value

/-- The spelling of a name that stands for all others. -/
def folded (name : String) : String := Lowercase.text name

/-- The entries with a value under a name, in place of an older one. -/
def put (name : String) (v : Value) (entries : List (String × Value)) : List (String × Value) :=
  if (entries.lookup name).isSome then entries.map fun e => if e.1 == name then (name, v) else e
  else entries ++ [(name, v)]

/-- The entries of a table. Anything else has none. -/
def entries : Value → List (String × Value)
  | table _ es => es
  | _ => []

/-- The items of a list. Anything else has none. -/
def items : Value → List Value
  | list _ vs => vs
  | _ => []

/-- The value as a table with new entries. -/
def withEntries (v : Value) (es : List (String × Value)) : Value :=
  match v with
  | table o _ => table o es
  | _ => table none es

/-- The value as a list with new items. -/
def withItems (v : Value) (vs : List Value) : Value :=
  match v with
  | list o _ => list o vs
  | _ => list none vs

mutual

/-- The entries with a value set under a name. A table is merged with the one that is there. -/
def setName (name : String) : Value → List (String × Value) → List (String × Value)
  | .table _ incoming, es =>
    let target := (es.lookup (folded name)).getD (.table none [])
    put (folded name) (merge incoming target) es
  | .atom o a, es => put (folded name) (.atom o a) es
  | .list o vs, es => put (folded name) (.list o vs) es

/-- A value with each of some entries set in it. -/
def merge : List (String × Value) → Value → Value
  | [], target => target
  | (name, v) :: more, target => merge more (target.withEntries (setName name v target.entries))

end

/-- The place of an item in a list of a length. -/
def position (length : Nat) (i : Int) : Nat :=
  match i with
  | .ofNat n => n
  | .negSucc n => length - (n + 1)

/-- The items, with nothing in the places that are missing up to one. -/
def padTo (place : Nat) (vs : List Value) : List Value :=
  vs ++ List.replicate (place + 1 - vs.length) (.atom none .nothing)

/-- The value with what one step leads to changed. -/
def within (v : Value) (f : Value → Value) : KeyStep → Value
  | .name n =>
    let old := (v.entries.lookup (folded n)).getD (.atom none .nothing)
    v.withEntries (put (folded n) (f old) v.entries)
  | .index i =>
    let place := position v.items.length i
    v.withItems ((padTo place v.items).modify place f)

/-- The value with another written where the last step leads. -/
def setLast (v new : Value) : KeyStep → Value
  | .name n => v.withEntries (setName n new v.entries)
  | .index i => v.within (fun _ => new) (.index i)

/-- The value with another written where some steps lead. -/
def setAlong (new : Value) : List KeyStep → Value → Value
  | [], v => v
  | [step], v => v.setLast new step
  | step :: steps, v => v.within (setAlong new steps) step

/-- The value with another written under a key. -/
def set (v : Value) (key : String) (new : Value) : Value :=
  setAlong new (KeyPath.ofKey key).steps v

end Value

end Baseline
