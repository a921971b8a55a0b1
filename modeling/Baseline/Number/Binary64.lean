import Baseline.Number.Decimal

/-!
# Binary floating point

Numbers of 53 binary digits, in exact arithmetic on natural numbers.

* `ofDecimal` gives the number nearest to a decimal value; a tie goes to the even mantissa;
* `shortest` gives the fewest decimal digits that read back as the number, and of those the nearest;
* `text` writes the number out, without an exponent.
-/

namespace Baseline

/-- A floating point number. A finite one is `mantissa` times two to the `exponent`, with a mantissa
below `2 ^ 53`. -/
inductive Binary64 where
  /-- no number -/
  | nan
  /-- beyond every number -/
  | infinite (negative : Bool)
  /-- a number; zero has a sign too -/
  | finite (negative : Bool) (mantissa : Nat) (exponent : Int)
deriving DecidableEq, Repr

namespace Binary64

/-- The least exponent. -/
def leastExponent : Int := -1074

/-- The greatest exponent. -/
def greatestExponent : Int := 971

/-- A quotient to the nearest integer, a tie to the even one. -/
def roundQuotient (num den : Nat) : Nat :=
  let q := num / den
  let r := num % den
  if 2 * r < den ∨ 2 * r = den ∧ q % 2 = 0 then q else q + 1

/-- The fraction `num / den` divided by a power of two. -/
def overPower (num den : Nat) : Int → Nat × Nat
  | .ofNat n => (num, den * twoTo n)
  | .negSucc n => (num * twoTo (n + 1), den)

/-- The number nearest to a positive fraction, or infinity beyond the greatest. -/
def ofFraction (negative : Bool) (num den : Nat) : Binary64 :=
  let low := max ((num.log2 : Int) - den.log2 - 53) leastExponent
  let (a, b) := overPower num den low
  let exponent := if a / b < twoTo 53 then low else low + 1
  let (a, b) := overPower num den exponent
  let m := roundQuotient a b
  let (mantissa, exponent) := if m = twoTo 53 then (twoTo 52, exponent + 1) else (m, exponent)
  if greatestExponent < exponent then infinite negative else finite negative mantissa exponent

/-- The number nearest to a decimal value. Values far out of range are told by their size, before
any large power is computed. -/
def ofDecimal (d : Decimal) : Binary64 :=
  if d.digits = 0 ∨ d.magnitude < -330 then finite d.negative 0 leastExponent
  else if 310 < d.magnitude then infinite d.negative
  else
    match d.exponent with
    | .ofNat n => ofFraction d.negative (d.digits * tenTo n) 1
    | .negSucc n => ofFraction d.negative d.digits (tenTo (n + 1))

/-! ## Shortest decimal -/

/-- The decimal values that read back as a number: all between `low` and `high`, counted in parts
of `unit`, the ends only if `closed`. The number itself is `value`. -/
structure Interval where
  /-- how many parts make one -/
  unit : Nat
  /-- the lower end -/
  low : Nat
  /-- the number itself -/
  value : Nat
  /-- the upper end -/
  high : Nat
  /-- whether the ends belong to it -/
  closed : Bool

/-- What reads back as `mantissa * 2 ^ exponent`: up to half the way to either neighbour. The lower
neighbour of a power of two is only half as far away. -/
def interval (mantissa : Nat) (exponent : Int) : Interval :=
  let below := if mantissa = twoTo 52 ∧ leastExponent < exponent then 1 else 2
  let (up, unit) : Nat × Nat :=
    match exponent - 2 with
    | .ofNat n => (twoTo n, 1)
    | .negSucc n => (1, twoTo (n + 1))
  ⟨unit, (4 * mantissa - below) * up, 4 * mantissa * up, (4 * mantissa + 2) * up,
    mantissa % 2 = 0⟩

namespace Interval

/-- `x * 10 ^ p` and `y / unit` on one scale. -/
def onScale (i : Interval) (p : Int) (x y : Nat) : Nat × Nat :=
  match p with
  | .ofNat n => (x * tenTo n * i.unit, y)
  | .negSucc n => (x * i.unit, y * tenTo (n + 1))

/-- Whether `x * 10 ^ p` is in the interval. -/
def contains (i : Interval) (p : Int) (x : Nat) : Bool :=
  let (xl, l) := i.onScale p x i.low
  let (xh, h) := i.onScale p x i.high
  if i.closed then l ≤ xl && xh ≤ h else l < xl && xh < h

/-- The power of ten of the first digit. -/
def firstPower (i : Interval) : Int :=
  ((digitsText (i.value * tenTo 330 / i.unit)).length : Int) - 331

/-- The multiple of `10 ^ p` in the interval that is nearest to the number, if there is one. Only
the two next to the number need a look. -/
def nearest? (i : Interval) (p : Int) : Option Nat :=
  let (one, v) := i.onScale p 1 i.value
  let under := v / one
  let next := under + 1
  match i.contains p under, i.contains p next with
  | true, true => some (if v - under * one < next * one - v then under else next)
  | true, false => some under
  | false, true => some next
  | false, false => none

/-- The first grid with a hit, from one digit on. Seventeen digits always have one. -/
def search (i : Interval) : Nat → Int → Nat × Int
  | 0, p => (0, p)
  | more + 1, p =>
    match i.nearest? p with
    | some x => (x, p)
    | none => search i more (p - 1)

end Interval

/-- Drops zeros from the end of the digits. -/
def trimZeros : Nat → Nat → Int → Nat × Int
  | 0, n, p => (n, p)
  | more + 1, n, p => if n ≠ 0 ∧ n % 10 = 0 then trimZeros more (n / 10) (p + 1) else (n, p)

/-- The shortest decimal that reads back as a finite number. -/
def shortest (negative : Bool) (mantissa : Nat) (exponent : Int) : Decimal :=
  if mantissa = 0 then ⟨negative, 0, 0⟩
  else
    let i := interval mantissa exponent
    let (x, p) := i.search 17 i.firstPower
    let (digits, exponent) := trimZeros 17 x p
    ⟨negative, digits, exponent⟩

/-- The number for a reader. -/
def text : Binary64 → String
  | nan => "NaN"
  | infinite negative => if negative then "-inf" else "inf"
  | finite negative mantissa exponent => (shortest negative mantissa exponent).text

/-- The number for a reader who has to see that it is no integer. -/
def pointedText (x : Binary64) : String :=
  match x with
  | finite _ _ _ => if x.text.toList.contains '.' then x.text else x.text ++ ".0"
  | _ => x.text

/-! ## Reading -/

/-- ASCII letters in lower case. -/
def lowered (cs : List Char) : List Char := cs.map Char.toLower

/-- Reads a number: a decimal literal, or the name of infinity or of no number in any case, with an
optional sign. -/
def ofText? (cs : List Char) : Option Binary64 :=
  let (negative, word) := takeSign cs
  if lowered word = "inf".toList ∨ lowered word = "infinity".toList then some (infinite negative)
  else if lowered word = "nan".toList then some nan
  else (Decimal.ofText? cs).map ofDecimal

end Binary64

end Baseline
