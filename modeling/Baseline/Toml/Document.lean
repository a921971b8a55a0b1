import Baseline.Toml.Datum

/-!
# TOML documents

A document is read in two steps. First the text becomes a list of statements: headers and
assignments. Then the statements build the table, and what is defined twice is refused.

How a table came to be decides what may still be added to it (`Standing`): a table that a longer
header or a dotted key made on the way may be defined later, one that has its own header or is
written in braces may not.
-/

namespace Baseline.Toml

open Reader

/-! ## Tables in the making -/

/-- How a table came to be. -/
structure Standing where
  /-- it was only passed through -/
  implicit : Bool
  /-- a dotted key made it -/
  dotted : Bool
deriving DecidableEq, Repr

/-- The standing of a table with its own header, and of the document itself. -/
def Standing.proper : Standing := ⟨false, false⟩

/-- What a name stands for while the document is being built. -/
inductive Item where
  /-- a datum, which is complete -/
  | datum (d : Datum)
  /-- a table -/
  | table (standing : Standing) (entries : List (String × Item))
  /-- a list of tables, the last of which is still open -/
  | rows (tables : List (List (String × Item)))

/-- The entries of a table in the making. -/
abbrev Entries := List (String × Item)

/-- The entries with one of them replaced. -/
def replaceEntry (name : String) (item : Item) (entries : Entries) : Entries :=
  entries.map fun e => if e.1 == name then (name, item) else e

/-- Goes down a path and changes the table at its end. What is missing on the way is made, and
passing through a list means passing through its last table. A dotted key (`dotted`) passes only
through tables that have no header. -/
def descend (dotted : Bool) (change : Standing → Entries → Option (Standing × Entries)) :
    List String → Standing → Entries → Option (Standing × Entries)
  | [], standing, entries => change standing entries
  | name :: path, standing, entries =>
    match entries.lookup name with
    | none => do
      let (s, es) ← descend dotted change path ⟨true, dotted⟩ []
      return (standing, entries ++ [(name, .table s es)])
    | some (.datum _) => none
    | some (.table s es) => do
      if dotted && !s.implicit then none
      let (s, es) ← descend dotted change path s es
      return (standing, replaceEntry name (.table s es) entries)
    | some (.rows tables) => do
      let last ← tables.getLast?
      let (_, es) ← descend dotted change path .proper last
      return (standing, replaceEntry name (.rows (tables.dropLast ++ [es])) entries)

/-- Adds a datum under a key. The table that takes it has to come from a dotted key exactly if the
key is dotted. -/
def assign (path : List String) (name : String) (d : Datum) :
    Standing → Entries → Option (Standing × Entries) :=
  descend true (fun standing entries =>
    if standing.dotted == path.isEmpty || (entries.lookup name).isSome then none
    else some (standing, entries ++ [(name, .datum d)])) path

/-- Opens the table of a header. One that was passed through before counts from now on as written
here, behind the others. -/
def openTable (path : List String) (name : String) :
    Standing → Entries → Option (Standing × Entries) :=
  descend false (fun standing entries =>
    match entries.lookup name with
    | none => some (standing, entries ++ [(name, .table .proper [])])
    | some (.table ⟨true, false⟩ es) =>
      some (standing, entries.filter (·.1 != name) ++ [(name, .table .proper es)])
    | some _ => none) path

/-- Opens one more table of a list. -/
def openRow (path : List String) (name : String) :
    Standing → Entries → Option (Standing × Entries) :=
  descend false (fun standing entries =>
    match entries.lookup name with
    | none => some (standing, entries ++ [(name, .rows [[]])])
    | some (.rows tables) => some (standing, replaceEntry name (.rows (tables ++ [[]])) entries)
    | some _ => none) path

mutual

/-- What a name stands for once the document is complete. -/
def Item.close : Item → Datum
  | .datum d => d
  | .table _ entries => .table (closeEntries entries)
  | .rows tables => .list (closeRows tables)

/-- The entries of a complete table. -/
def closeEntries : List (String × Item) → List (String × Datum)
  | [] => []
  | (name, item) :: entries => (name, item.close) :: closeEntries entries

/-- The tables of a complete list. -/
def closeRows : List (List (String × Item)) → List Datum
  | [] => []
  | entries :: tables => .table (closeEntries entries) :: closeRows tables

end

/-! ## Data -/

/-- A datum without parts. -/
def atom : Reader Datum :=
  (.text <$> string) <|> (.moment <$> moment) <|> (.real <$> float) <|> (.whole <$> integer) <|>
    (do word "true"; return .truth true) <|> (do word "false"; return .truth false)

/-- A list over any number of lines. A comma may stand behind the last item. -/
def array (datum : Reader Datum) : Reader Datum := do
  char '['
  let items ← separated (do gap; let d ← datum; gap; return d) (char ',')
  if !items.isEmpty then
    let _ ← maybe (char ',')
  gap
  char ']'
  return .list items

/-- A key and its datum. -/
def pair (datum : Reader Datum) : Reader (List String × Datum) := do
  let k ← key
  char '='
  spaces
  let d ← datum
  return (k, d)

/-- Adds a pair to a table. -/
def assignPair (k : List String) (d : Datum) (standing : Standing) (entries : Entries) :
    Option (Standing × Entries) := do
  let name ← k.getLast?
  assign k.dropLast name d standing entries

/-- A table in braces, on one line. No comma stands behind the last pair. -/
def inlineTable (datum : Reader Datum) : Reader Datum := do
  char '{'
  let pairs ← separated (do let p ← pair datum; spaces; return p) (char ',')
  spaces
  char '}'
  let build := pairs.foldlM (fun (s, es) (k, d) => assignPair k d s es)
    (Standing.proper, ([] : Entries))
  match build with
  | none => failure
  | some (_, entries) => return .table (closeEntries entries)

/-- A datum that nests at most so deep. -/
def datum : Nat → Reader Datum
  | 0 => atom
  | depth + 1 => atom <|> array (datum depth) <|> inlineTable (datum depth)

/-! ## Statements -/

/-- A statement. -/
inductive Statement where
  /-- nothing but blanks and a comment -/
  | blank
  /-- a datum for a key of the table that is open -/
  | assignment (path : List String) (name : String) (d : Datum)
  /-- the header of a table -/
  | header (path : List String) (name : String)
  /-- the header of one more table of a list -/
  | rowHeader (path : List String) (name : String)

/-- A key as the way to a table and the name in it. -/
def splitKey (k : List String) : Reader (List String × String) :=
  match k.getLast? with
  | none => failure
  | some name => return (k.dropLast, name)

/-- One statement, with its line ending. -/
def statement : Reader Statement := do
  spaces
  (do newline; return .blank) <|>
    (do comment; lineEnd; return .blank) <|>
    (do
      word "[["
      let (path, name) ← splitKey (← key)
      word "]]"
      lineRest
      return .rowHeader path name) <|>
    (do
      char '['
      let (path, name) ← splitKey (← key)
      char ']'
      lineRest
      return .header path name) <|>
    (do
      let (k, d) ← pair (datum (depthLimit - 1))
      let (path, name) ← splitKey k
      lineRest
      return .assignment path name d)

/-- All statements of a document. -/
def statements : Reader (List Statement) := do
  let _ ← maybe (char '\uFEFF')
  let all ← many statement
  spaces
  ended
  return all

/-! ## Building -/

/-- A document in the making. -/
structure Draft where
  /-- the table that is open -/
  current : List String
  /-- all entries so far -/
  entries : Entries

/-- The draft after a statement. -/
def Draft.add (d : Draft) : Statement → Option Draft
  | .blank => some d
  | .header path name => do
    let (_, entries) ← openTable path name .proper d.entries
    return ⟨path ++ [name], entries⟩
  | .rowHeader path name => do
    let (_, entries) ← openRow path name .proper d.entries
    return ⟨path ++ [name], entries⟩
  | .assignment path name value => do
    let (_, entries) ← descend false (assign path name value) d.current .proper d.entries
    return { d with entries }

/-- The table that a document is, if the text is a document. -/
def document? (text : String) : Option Datum := do
  let all ← statements.whole text.toList
  let draft ← all.foldlM Draft.add ⟨[], []⟩
  return .table (closeEntries draft.entries)

/-- The entries of a document as settings, if the text is a document and means a table. -/
def parse? (text : String) : Option (List (String × Value)) := do
  match ← (← document? text).value? with
  | .table _ entries => return entries
  | _ => none

end Baseline.Toml
