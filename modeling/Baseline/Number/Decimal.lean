import Baseline.Number.Digits

/-!
# Decimal literals

A literal such as `-12.5e3` as an exact value: its digits as one number, and the power of ten that
they count. Either side of the point may be empty, but not both.
-/

namespace Baseline

/-- An exact decimal value: `digits` times ten to the `exponent`, and a sign that zero keeps too. -/
structure Decimal where
  /-- whether it has a minus sign -/
  negative : Bool
  /-- all digits as one number -/
  digits : Nat
  /-- the power of ten that the last digit counts -/
  exponent : Int
deriving DecidableEq, Repr

namespace Decimal

/-- The power of ten that the text behind the digits asks for: nothing, or `e` and an integer. -/
def readExponent? : List Char → Option Int
  | [] => some 0
  | c :: cs => if c == 'e' || c == 'E' then signedValue? cs else none

/-- Reads a literal. -/
def ofText? (cs : List Char) : Option Decimal :=
  let (negative, cs) := takeSign cs
  let whole := cs.takeWhile Char.isDigit
  let behind := cs.dropWhile Char.isDigit
  let (fraction, rest) :=
    match behind with
    | '.' :: tail => (tail.takeWhile Char.isDigit, tail.dropWhile Char.isDigit)
    | _ => ([], behind)
  if whole.isEmpty && fraction.isEmpty then none
  else
    (readExponent? rest).map fun e =>
      ⟨negative, digitsValue (whole ++ fraction), e - fraction.length⟩

/-- How many digits stand before the point when the value is written out; an estimate of its size
that is exact up to one power of ten. -/
def magnitude (d : Decimal) : Int := (digitsText d.digits).length + d.exponent

/-- The value written out, without an exponent. -/
def text (d : Decimal) : String :=
  let ds := digitsText d.digits
  let zeros (n : Nat) := List.replicate n '0'
  let body :=
    match d.exponent with
    | .ofNat n => if d.digits = 0 then ds else ds ++ zeros n
    | .negSucc n =>
      let places := n + 1
      if places < ds.length then ds.take (ds.length - places) ++ '.' :: ds.drop (ds.length - places)
      else '0' :: '.' :: zeros (places - ds.length) ++ ds
  String.ofList (if d.negative then '-' :: body else body)

end Decimal

end Baseline
