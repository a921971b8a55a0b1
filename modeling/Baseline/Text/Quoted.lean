import Baseline.Text.CharClass

/-!
# Quoted text

Text between double quotes, on one line, with everything spelled out that a reader could not see.
-/

namespace Baseline.Quoted

/-- A number in lower-case hexadecimal digits. -/
def hexText (n : Nat) : List Char := Nat.toDigits 16 n

/-- One character between the quotes. -/
def encodeChar (c : Char) : List Char :=
  if c = '\t' then ['\\', 't']
  else if c = '\r' then ['\\', 'r']
  else if c = '\n' then ['\\', 'n']
  else if c = '"' then ['\\', '"']
  else if c = '\\' then ['\\', '\\']
  else if c.toNat = 0 then ['\\', '0']
  else if CharClass.isHidden c then ['\\', 'u', '{'] ++ hexText c.toNat ++ ['}']
  else [c]

/-- The quoted form of a text. -/
def encode (s : String) : String :=
  String.ofList ('"' :: s.toList.flatMap encodeChar ++ ['"'])

/-- One character of a path name between the quotes. -/
def encodeNameChar (c : Char) : List Char :=
  if c = '\'' then ['\\', '\''] else encodeChar c

/-- The quoted form of a path name. Its single quotes are escaped too. -/
def encodeName (s : String) : String :=
  String.ofList ('"' :: s.toList.flatMap encodeNameChar ++ ['"'])

end Baseline.Quoted
