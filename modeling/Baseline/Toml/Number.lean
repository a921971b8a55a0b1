import Baseline.Number.Binary64
import Baseline.Toml.Lexeme

/-!
# TOML numbers

Integers of 64 bits, in four bases, and floating point numbers. An underscore may stand between two
digits.
-/

namespace Baseline.Toml

open Reader

/-- Digits of a kind, with an underscore allowed between each two. -/
def digitRun (isDigit : Char → Bool) : Reader (List Char) := do
  let first ← satisfy isDigit
  let more ← many do
    let _ ← maybe (char '_')
    satisfy isDigit
  return first :: more

/-- A sign, if there is one. -/
def sign : Reader (List Char) := do
  match ← maybe (satisfy fun c => c == '+' || c == '-') with
  | none => return []
  | some c => return [c]

/-- The digits of an integer in base ten: no zero in front of another digit. -/
def decimalDigits : Reader (List Char) := do
  if ← sees (· == '0') then
    char '0'
    return ['0']
  else digitRun Char.isDigit

/-- An integer behind the mark of its base. It has no sign. -/
def basedInteger (mark : String) (base : Nat) (isDigit : Char → Bool) : Reader Int := do
  word mark
  return inBase base (← digitRun isDigit)

/-- An integer in base ten. -/
def decimalInteger : Reader Int := do
  let s ← sign
  let ds ← decimalDigits
  match signedValue? (s ++ ds) with
  | some n => return n
  | none => failure

/-- An integer that 64 bits can hold. -/
def integer : Reader Int := do
  let n ← basedInteger "0x" 16 isHexDigit <|> basedInteger "0o" 8 (fun c => '0' ≤ c && c ≤ '7') <|>
    basedInteger "0b" 2 (fun c => c == '0' || c == '1') <|> decimalInteger
  if fits64 n then return n else failure

/-- The power of ten behind a number. -/
def exponentPart : Reader (List Char) := do
  let e ← satisfy fun c => c == 'e' || c == 'E'
  let s ← sign
  let ds ← digitRun Char.isDigit
  return e :: s ++ ds

/-- The places behind the point. -/
def fractionPart : Reader (List Char) := do
  char '.'
  let ds ← digitRun Char.isDigit
  return '.' :: ds

/-- A number with a fraction or a power of ten. One that is greater than every number is refused,
one that is less than every number is not. -/
def digitFloat : Reader Binary64 := do
  let s ← sign
  let whole ← decimalDigits
  let rest ← exponentPart <|> do
    let fraction ← fractionPart
    let exponent ← maybe exponentPart
    return fraction ++ exponent.getD []
  match Binary64.ofText? (s ++ whole ++ rest) with
  | none => failure
  | some (.infinite false) => failure
  | some x => return x

/-- Infinity, or no number, by name. -/
def namedFloat : Reader Binary64 := do
  let s ← sign
  (do word "inf"; return .infinite (s == ['-'])) <|> (do word "nan"; return .nan)

/-- A floating point number. -/
def float : Reader Binary64 := digitFloat <|> namedFloat

end Baseline.Toml
