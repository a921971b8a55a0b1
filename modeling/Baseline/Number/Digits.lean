/-!
# Digits

Numbers as runs of digits, in base ten and in other bases up to sixteen, with and without a sign.
-/

namespace Baseline

/-- The value of a digit; letters of either case count on from ten. -/
def digitValue (c : Char) : Nat :=
  if c.isDigit then c.toNat - '0'.toNat else 10 + (c.toLower.toNat - 'a'.toNat)

/-- Whether a character is a digit in base sixteen. -/
def isHexDigit (c : Char) : Bool := c.isDigit || ('a' ≤ c.toLower && c.toLower ≤ 'f')

/-- The number that digits spell in a base. -/
def inBase (base : Nat) (cs : List Char) : Nat := cs.foldl (fun n c => base * n + digitValue c) 0

/-- The number that decimal digits spell. -/
def digitsValue (cs : List Char) : Nat := inBase 10 cs

/-- The decimal digits of a number. -/
def digitsText (n : Nat) : List Char := Nat.toDigits 10 n

/-- Takes a sign off: whether it is a minus, and what follows. -/
def takeSign : List Char → Bool × List Char
  | '-' :: cs => (true, cs)
  | '+' :: cs => (false, cs)
  | cs => (false, cs)

/-- The value of decimal digits with an optional sign. -/
def signedValue? (cs : List Char) : Option Int :=
  let (negative, ds) := takeSign cs
  if ds.isEmpty || !ds.all Char.isDigit then none
  else if negative then some (-(digitsValue ds : Int))
  else some (digitsValue ds)

/-- A power of two. -/
def twoTo (n : Nat) : Nat := Nat.pow 2 n

/-- A power of ten. -/
def tenTo (n : Nat) : Nat := Nat.pow 10 n

/-- Whether 64 bits can hold an integer. -/
def fits64 (n : Int) : Bool := -(twoTo 63 : Int) ≤ n && n < (twoTo 63 : Int)

end Baseline
