import Baseline.Disk.Reading
import Baseline.Text.CharClass

/-!
# Environment files

A file `.env` in the working directory, or in the next directory above that has one, adds variables
to the environment. A line is `NAME=value`, with `export` allowed in front. The value may be quoted
and may use variables; a line that cannot be read ends the reading, and what was read before it
stays.
-/

namespace Baseline.EnvFile

/-- Variables with their values. -/
abbrev Variables := List (String × String)

/-- What an environment holds under a name. A variable is kept as the text `NAME=value`, so a name
with an equals sign in it reaches into the value of a shorter name. -/
def value? (environment : Variables) (name : String) : Option String :=
  if name.isEmpty then none
  else
    environment.findSome? fun (other, value) =>
      let entry := other.toList ++ '=' :: value.toList
      let start := name.toList ++ ['=']
      if start.isPrefixOf entry then some (String.ofList (entry.drop start.length)) else none

/-! ## Values -/

/-- Where in a value the reading is. `quoted` is whether it is inside double quotes. -/
inductive Place where
  /-- in plain text -/
  | text (quoted : Bool)
  /-- behind a backslash -/
  | escaped (quoted : Bool)
  /-- inside single quotes -/
  | literal
  /-- in the name of a variable behind `$` -/
  | name (quoted : Bool) (cs : List Char)
  /-- in the name of a variable in braces -/
  | braced (quoted : Bool) (cs : List Char)
  /-- behind the value -/
  | behind
deriving DecidableEq, Repr

/-- The character that a backslash stands for, together with the next. -/
def unescape? (c : Char) : Option Char :=
  if ['\\', '\'', '"', '$', ' '].contains c then some c
  else if c == 'n' then some '\n'
  else none

/-- The value that characters spell, read on from a place. `valueOf` gives the value of a
variable. -/
def readValue (valueOf : List Char → List Char) : Place → List Char → Option (List Char)
  | .behind, [] => some []
  | .behind, c :: cs =>
    if c == ' ' || c == '\t' then readValue valueOf .behind cs
    else if c == '#' then some []
    else none
  | .escaped quoted, [] => if quoted then none else some []
  | .escaped quoted, c :: cs => do
    let c ← unescape? c
    let rest ← readValue valueOf (.text quoted) cs
    return c :: rest
  | .literal, [] => none
  | .literal, c :: cs =>
    if c == '\'' then readValue valueOf (.text false) cs
    else (readValue valueOf .literal cs).map (c :: ·)
  | .name quoted n, [] => if quoted then none else some (valueOf n)
  | .name quoted n, c :: cs =>
    if CharClass.isWord c then readValue valueOf (.name quoted (n ++ [c])) cs
    else if c == '{' && n.isEmpty then readValue valueOf (.braced quoted []) cs
    else if c == '$' then (readValue valueOf (.name quoted []) cs).map (valueOf n ++ ·)
    else (readValue valueOf (.text quoted) cs).map (valueOf n ++ c :: ·)
  | .braced _ _, [] => none
  | .braced quoted n, c :: cs =>
    if c == '}' then (readValue valueOf (.text quoted) cs).map (valueOf n ++ ·)
    else readValue valueOf (.braced quoted (n ++ [c])) cs
  | .text quoted, [] => if quoted then none else some []
  | .text quoted, c :: cs =>
    if c == '$' then readValue valueOf (.name quoted []) cs
    else if c == '\\' then readValue valueOf (.escaped quoted) cs
    else if c == '"' then readValue valueOf (.text !quoted) cs
    else if quoted then (readValue valueOf (.text true) cs).map (c :: ·)
    else if c == '\'' then readValue valueOf .literal cs
    else if c == ' ' || c == '\t' then readValue valueOf .behind cs
    else (readValue valueOf (.text false) cs).map (c :: ·)

/-! ## Lines -/

/-- What a line says. -/
inductive Said where
  /-- nothing -/
  | nothing
  /-- a variable with its value -/
  | binding (name value : String)
deriving DecidableEq, Repr

/-- Drops blanks from the front. -/
def dropBlanks (cs : List Char) : List Char := cs.dropWhile CharClass.isBlank

/-- Whether a character may start a name. -/
def startsName (c : Char) : Bool := c.isAlpha || c == '_'

/-- Whether a character may stand in a name. -/
def inName (c : Char) : Bool := c.isAlphanum || c == '_' || c == '.'

/-- A name, and what follows it and blanks. -/
def readName? (cs : List Char) : Option (List Char × List Char) :=
  if cs.head?.any startsName then some (cs.takeWhile inName, dropBlanks (cs.dropWhile inName))
  else none

/-- The name of the variable, and what follows the equals sign and blanks. The word `export` in
front does not count, unless it is the name itself. -/
def readTarget? (cs : List Char) : Option (List Char × List Char) := do
  let (name, rest) ← readName? cs
  match rest with
  | '=' :: rest => return (name, dropBlanks rest)
  | _ =>
    if name == "export".toList then
      let (name, rest) ← readName? rest
      match rest with
      | '=' :: rest => return (name, dropBlanks rest)
      | _ => none
    else none

/-- Reads a line. -/
def readLine? (valueOf : List Char → List Char) (line : String) : Option Said :=
  let cs := dropBlanks (line.toList.reverse.dropWhile CharClass.isBlank).reverse
  if cs.isEmpty || cs.head? == some '#' then some .nothing
  else do
    let (name, rest) ← readTarget? cs
    if rest.isEmpty || rest.head? == some '#' then return .binding (String.ofList name) ""
    else
      let value ← readValue valueOf (.text false) rest
      return .binding (String.ofList name) (String.ofList value)

/-! ## Files -/

/-- What is known while a file is read. -/
structure Known where
  /-- the environment so far -/
  environment : Variables
  /-- what the lines so far said, the last line first -/
  said : Variables

/-- The value of a variable: from the environment, else from an earlier line, else empty. -/
def Known.valueOf (k : Known) (name : List Char) : List Char :=
  let name := String.ofList name
  (((value? k.environment name).orElse fun _ => k.said.lookup name).getD "").toList

/-- What is known after a binding. A variable that is set already keeps its value. -/
def Known.bind (k : Known) (name value : String) : Known where
  environment :=
    if (k.environment.lookup name).isSome then k.environment else k.environment ++ [(name, value)]
  said := (name, value) :: k.said

/-- Reads lines, up to the first that cannot be read. -/
def readLines (k : Known) : List Bytes → Known
  | [] => k
  | line :: lines =>
    match Utf8.decode? line with
    | none => k
    | some line =>
      match readLine? k.valueOf line with
      | none => k
      | some .nothing => readLines k lines
      | some (.binding name value) => readLines (k.bind name value) lines

/-- The environment with what a file adds. -/
def extend (environment : Variables) (content : Bytes) : Variables :=
  (readLines ⟨environment, []⟩ (splitWhere (· == 10) content)).environment

section

variable {m : Type → Type} [Monad m]

/-- The name of the file. -/
def fileName : Path := Path.ofString ".env"

/-- The file in a directory or in one of so many above it. A failure other than that nothing is
there ends the search. -/
def find (v : View m) : Nat → Path → m (Option Path)
  | above, folder => do
    let candidate := folder.join fileName
    let goUp : m (Option Path) :=
      match above with
      | 0 => return none
      | above + 1 =>
        match folder.parent? with
        | none => return none
        | some parent => find v above parent
    match ← (v.targetKind candidate).run with
    | .ok .file => return some candidate
    | .ok _ => goUp
    | .error e => if e.isNotFound then goUp else return none

/-- The environment with what the file adds, if there is one that can be read. -/
def load (v : View m) (environment : Variables) : m Variables := do
  let folder ← v.here
  match ← find v folder.names.length folder with
  | none => return environment
  | some file =>
    match ← (v.content file).run with
    | .error _ => return environment
    | .ok content => return extend environment content

end

end Baseline.EnvFile
