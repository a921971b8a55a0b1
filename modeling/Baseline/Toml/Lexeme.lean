import Baseline.Number.Digits
import Baseline.Text.Reader

/-!
# TOML lexemes

Blanks, comments, line endings, strings and keys. A line ends in LF or CR LF; a lone CR and all
other control characters but the tab are refused everywhere.
-/

namespace Baseline.Toml

open Reader

/-- The blanks inside a line. -/
def isSpace (c : Char) : Bool := c == ' ' || c == '\t'

/-- The characters that may stand in a line: the tab, and what is no control. -/
def isVisible (c : Char) : Bool := c == '\t' || (' ' ≤ c && c != '\x7f')

/-- Blanks, perhaps none. -/
def spaces : Reader Unit := do
  let _ ← takeWhile isSpace

/-- A line ending. -/
def newline : Reader Unit := char '\n' <|> word "\r\n"

/-- A comment, up to the end of its line. -/
def comment : Reader Unit := do
  char '#'
  let _ ← takeWhile isVisible

/-- The end of a line or of the text. -/
def lineEnd : Reader Unit := newline <|> ended

/-- What may follow on a line that is complete. -/
def lineRest : Reader Unit := do
  spaces
  let _ ← maybe comment
  lineEnd

/-- Blanks, comments and line endings, perhaps none. -/
def gap : Reader Unit := do
  spaces
  let _ ← many do
    let _ ← maybe comment
    newline
    spaces

/-! ## Strings -/

/-- A character by its number, in so many hexadecimal digits. -/
def numbered (n : Nat) : Reader Char := do
  let code := inBase 16 (← exactly isHexDigit n)
  if code.isValidChar then return Char.ofNat code else failure

/-- What stands behind a backslash. -/
def escaped : Reader Char := do
  match ← satisfy fun _ => true with
  | 'b' => return '\x08'
  | 't' => return '\t'
  | 'n' => return '\n'
  | 'f' => return '\x0c'
  | 'r' => return '\r'
  | '"' => return '"'
  | '\\' => return '\\'
  | 'u' => numbered 4
  | 'U' => numbered 8
  | _ => failure

/-- A part of a string on one line that is read for its escapes. -/
def basicPart : Reader (List Char) :=
  takeWhile1 (fun c => isVisible c && c != '"' && c != '\\') <|> do
    char '\\'
    return [← escaped]

/-- A string on one line that is read for its escapes. -/
def basicString : Reader (List Char) := do
  char '"'
  let parts ← many basicPart
  char '"'
  return parts.flatten

/-- A string on one line that is taken as it stands. -/
def literalString : Reader (List Char) := do
  char '\''
  let cs ← takeWhile fun c => isVisible c && c != '\''
  char '\''
  return cs

/-- A line ending inside a string counts as LF. -/
def stringNewline : Reader (List Char) := do
  newline
  return ['\n']

/-- A backslash at the end of a line drops the line ending and all blank space behind it. -/
def foldedLine : Reader (List Char) := do
  char '\\'
  spaces
  newline
  let _ ← many (newline <|> (do let _ ← takeWhile1 isSpace))
  return []

/-- One or two quotes that do not close the string. -/
def innerQuotes (q : Char) : Reader (List Char) := do
  let cs ← takeWhile1 (· == q)
  if cs.length < 3 then return cs else failure

/-- The closing quotes: three, and up to two before them that belong to the string. -/
def closingQuotes (q : Char) : Reader (List Char) := do
  let cs ← takeWhile1 (· == q)
  if 3 ≤ cs.length && cs.length ≤ 5 then return cs.drop 3 else failure

/-- A string over many lines. A line ending directly behind the opening quotes does not count. -/
def longString (q : Char) (part : Reader (List Char)) : Reader (List Char) := do
  word (String.ofList [q, q, q])
  let _ ← maybe newline
  let parts ← many (part <|> stringNewline <|> innerQuotes q)
  let last ← closingQuotes q
  return parts.flatten ++ last

/-- A string over many lines that is read for its escapes. -/
def longBasicString : Reader (List Char) := longString '"' (foldedLine <|> basicPart)

/-- A string over many lines that is taken as it stands. -/
def longLiteralString : Reader (List Char) :=
  longString '\'' (takeWhile1 fun c => isVisible c && c != '\'')

/-- Any string. Three quotes always open a string over many lines. -/
def string : Reader String := do
  let cs ← get
  let text ←
    if "\"\"\"".toList.isPrefixOf cs then longBasicString
    else if "'''".toList.isPrefixOf cs then longLiteralString
    else basicString <|> literalString
  return String.ofList text

/-! ## Keys -/

/-- The characters of a key without quotes. -/
def isKeyChar (c : Char) : Bool := c.isAlphanum || c == '-' || c == '_'

/-- One part of a key. -/
def keyPart : Reader String := do
  let cs ← takeWhile1 isKeyChar <|> basicString <|> literalString
  return String.ofList cs

/-- How deep values and keys may nest. -/
def depthLimit : Nat := 80

/-- A key: its parts, with dots between them. -/
def key : Reader (List String) := do
  let parts ← separated (do spaces; let k ← keyPart; spaces; return k) (char '.')
  if parts.isEmpty || depthLimit ≤ parts.length then failure else return parts

end Baseline.Toml
