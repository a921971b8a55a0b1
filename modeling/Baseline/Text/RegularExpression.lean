import Baseline.Number.Digits
import Baseline.Text.Reader

/-!
# The form of regular expressions

Whether a text is a regular expression; what it matches is not asked. A text is cut into tokens, and
then two rules are checked along them: parentheses close what they open, and a repetition follows
something that can be repeated. There are no counted repetitions and no references to groups.
-/

namespace Baseline.RegularExpression

open Reader

/-! ## Escapes and classes -/

/-- What a backslash makes of the characters behind it. -/
inductive Escape where
  /-- a character -/
  | literal (c : Char)
  /-- a class of characters -/
  | oneOf
  /-- a condition on the place -/
  | anchor
deriving DecidableEq, Repr

/-- A character by its number, in so many hexadecimal digits. -/
def numbered (digits : Nat) : Reader Escape := do
  let n := inBase 16 (← exactly isHexDigit digits)
  if n.isValidChar then return .literal (Char.ofNat n) else failure

/-- A backslash and what belongs to it. Digits would be references. -/
def escape : Reader Escape := do
  char '\\'
  let c ← satisfy fun _ => true
  if c == 'x' then numbered 2
  else if c == 'u' then numbered 4
  else if c == 'U' then numbered 8
  else if c == 'p' || c == 'P' then
    let _ ← satisfy Char.isAlpha
    return .oneOf
  else if "dDsSwW".toList.contains c then return .oneOf
  else if "AzbB<>".toList.contains c then return .anchor
  else if "aftnrv".toList.contains c then return .literal c
  else if c.toNat < 128 && !c.isAlphanum then return .literal c
  else failure

/-- One end of a range, or what stands alone in a class: a character, unless it is a class. -/
def classItem : Reader (Option Char) := do
  (do
    match ← escape with
    | .literal c => return some c
    | .oneOf => return none
    | .anchor => failure) <|>
    (some <$> satisfy (· != '\\'))

/-- What comes in a class: two hyphens, one item, or a range, which may not run backwards. -/
def classRange : Reader Unit :=
  word "--" <|>
    (do
      if ← sees ("[]".toList.contains ·) then failure
      let least ← classItem
      let cs ← get
      match cs with
      | '-' :: c :: _ =>
        if c != ']' && c != '-' then
          char '-'
          match least, ← classItem with
          | some least, some greatest => if least ≤ greatest then return () else failure
          | _, _ => failure
      | _ => return ())

/-- A class in brackets, with classes in it that nest at most so deep. A bracket right behind the
opening one does not close. -/
def bracketClass : Nat → Reader Unit
  | 0 => failure
  | depth + 1 => do
    char '['
    let _ ← maybe (char '^')
    let hyphens ← takeWhile (· == '-')
    if hyphens.isEmpty then
      let _ ← maybe (char ']')
    let _ ← many (bracketClass depth <|> classRange)
    char ']'

/-! ## Tokens -/

/-- A piece of a regular expression. -/
inductive Token where
  /-- a parenthesis that opens a group -/
  | opening
  /-- a parenthesis that closes a group -/
  | closing
  /-- a bar between alternatives -/
  | bar
  /-- a repetition of what stands before -/
  | repetition
  /-- flags for what follows -/
  | flags
  /-- anything else -/
  | atom
deriving DecidableEq, Repr

/-- The name of a group and the bracket behind it. -/
def groupName : Reader Token := do
  let _ ← maybe (char 'P')
  char '<'
  let _ ← satisfy fun c => c.isAlpha || c == '_'
  let _ ← takeWhile fun c => c.isAlphanum || "_.[]".toList.contains c
  char '>'
  return .opening

/-- Flags, at most one of each. After a hyphen come those that are turned off. -/
def flagGroup : Reader Token := do
  let fs ← takeWhile ("imsUuxR-".toList.contains ·)
  if !decide fs.Nodup || fs.getLast? == some '-' then failure
  (do char ':'; return .opening) <|>
    (do
      if fs.isEmpty then failure
      char ')'
      return .flags)

/-- One token. -/
def token : Reader Token := do
  (do word "(?"; groupName <|> flagGroup) <|>
    (do
      if "(?".toList.isPrefixOf (← get) then failure
      char '('
      return .opening) <|>
    (do char ')'; return .closing) <|>
    (do char '|'; return .bar) <|>
    (do
      let _ ← satisfy ("*+?".toList.contains ·)
      return .repetition) <|>
    (do
      let _ ← escape
      return .atom) <|>
    (do
      let cs ← get
      bracketClass cs.length
      return .atom) <|>
    (do
      let _ ← satisfy fun c => !("()|*+?\\[\x7b".toList.contains c)
      return .atom)

/-- Whether tokens keep the two rules, with so many groups open, and something or nothing before
them that can be repeated. -/
def fits : Nat → Bool → List Token → Bool
  | depth, _, [] => depth == 0
  | depth, _, .opening :: ts => fits (depth + 1) false ts
  | 0, _, .closing :: _ => false
  | depth + 1, _, .closing :: ts => fits depth true ts
  | depth, _, .bar :: ts => fits depth false ts
  | depth, _, .flags :: ts => fits depth false ts
  | depth, _, .atom :: ts => fits depth true ts
  | depth, repeatable, .repetition :: ts => repeatable && fits depth true ts

/-- Whether a text is a regular expression. -/
def isWellFormed (text : String) : Bool :=
  match (many token).whole text.toList with
  | some ts => fits 0 false ts
  | none => false

end Baseline.RegularExpression
