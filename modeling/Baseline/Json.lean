import Baseline.Settings.Value
import Baseline.Text.Reader

/-!
# JSON documents

The reader for settings that are written in JSON. Of two entries with one name the later counts.
-/

namespace Baseline.Json

open Reader

/-- The blanks between lexemes. -/
def spaces : Reader Unit := do
  let _ ← takeWhile fun c => c == ' ' || c == '\t' || c == '\n' || c == '\r'

/-! ## Strings -/

/-- A number of sixteen bits, in four digits. -/
def unit16 : Reader Nat := do
  return inBase 16 (← exactly isHexDigit 4)

/-- A character by its number; beyond sixteen bits, in two halves. -/
def numbered : Reader Char := do
  let high ← unit16
  if 0xD800 ≤ high && high ≤ 0xDBFF then
    word "\\u"
    let low ← unit16
    if 0xDC00 ≤ low && low ≤ 0xDFFF then
      return Char.ofNat (0x10000 + (high - 0xD800) * 0x400 + (low - 0xDC00))
    else failure
  else if high.isValidChar then return Char.ofNat high
  else failure

/-- What stands behind a backslash. -/
def escaped : Reader Char := do
  match ← satisfy fun _ => true with
  | '"' => return '"'
  | '\\' => return '\\'
  | '/' => return '/'
  | 'b' => return '\x08'
  | 'f' => return '\x0c'
  | 'n' => return '\n'
  | 'r' => return '\r'
  | 't' => return '\t'
  | 'u' => numbered
  | _ => failure

/-- A string. -/
def string : Reader String := do
  char '"'
  let cs ← many (satisfy (fun c => ' ' ≤ c && c != '"' && c != '\\') <|> do
    char '\\'
    escaped)
  char '"'
  return String.ofList cs

/-! ## Numbers -/

/-- The digits of an integer: no zero in front of another digit. -/
def integerDigits : Reader (List Char) := do
  if ← sees (· == '0') then
    char '0'
    return ['0']
  else takeWhile1 Char.isDigit

/-- The places behind the point. -/
def fractionPart : Reader (List Char) := do
  char '.'
  let ds ← takeWhile1 Char.isDigit
  return '.' :: ds

/-- The power of ten behind a number. -/
def exponentPart : Reader (List Char) := do
  let e ← satisfy fun c => c == 'e' || c == 'E'
  let s ← maybe (satisfy fun c => c == '+' || c == '-')
  let ds ← takeWhile1 Char.isDigit
  return e :: s.toList ++ ds

/-- A number: an integer if 64 bits can hold it and it is no negative zero, else the floating point
number next to it. -/
def number : Reader Atom := do
  let minus ← maybe (char '-')
  let ds ← integerDigits
  let fraction ← maybe fractionPart
  let exponent ← maybe exponentPart
  let n : Int := if minus.isSome then -(digitsValue ds : Int) else digitsValue ds
  let isWhole := fraction.isNone && exponent.isNone && !(minus.isSome && n == 0)
  if isWhole && fits64 n then return .whole n
  else
    let cs := (if minus.isSome then ['-'] else []) ++ ds ++ fraction.getD [] ++ exponent.getD []
    match Binary64.ofText? cs with
    | some (.finite s m e) => return .real (.finite s m e)
    | _ => failure

/-! ## Values -/

/-- The entries with a value under a name, in place of an older one. -/
def enter (entries : List (String × Value)) (e : String × Value) : List (String × Value) :=
  entries.filter (·.1 != e.1) ++ [e]

/-- A value without parts. -/
def atom : Reader Value :=
  Value.atom none <$>
    ((do word "null"; return .nothing) <|>
      (do word "true"; return .truth true) <|>
      (do word "false"; return .truth false) <|>
      (Atom.text <$> string) <|> number)

/-- A list of values. -/
def array (value : Reader Value) : Reader Value := do
  char '['
  spaces
  let items ← separated value (char ',')
  char ']'
  return .list none items

/-- A name and its value. -/
def entry (value : Reader Value) : Reader (String × Value) := do
  spaces
  let name ← string
  spaces
  char ':'
  let v ← value
  return (name, v)

/-- Values by name. -/
def object (value : Reader Value) : Reader Value := do
  char '\x7b'
  spaces
  let entries ← separated (entry value) (char ',')
  char '\x7d'
  return .table none (entries.foldl enter [])

/-- A value with blanks around it that nests at most so deep. -/
def value : Nat → Reader Value
  | 0 => do
    spaces
    let v ← atom
    spaces
    return v
  | depth + 1 => do
    spaces
    let v ← atom <|> array (value depth) <|> object (value depth)
    spaces
    return v

/-- How deep lists and tables may nest. -/
def depthLimit : Nat := 127

/-- The entries of a document, if the text is one and is a table. -/
def parse? (text : String) : Option (List (String × Value)) :=
  match (value depthLimit).whole text.toList with
  | some (.table _ entries) => some entries
  | _ => none

end Baseline.Json
