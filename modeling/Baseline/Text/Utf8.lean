import Baseline.Text.Split

/-!
# UTF-8

The text behind a run of bytes, read in three layers:

* `Step`: the machine that reads one byte at a time and knows which bytes may still follow;
* `scalars`: every well-formed sequence as its character, every maximal ill-formed run as a hole;
* `decode?` and `lossy`: text if there is no hole, text with each hole replaced by U+FFFD.

`encode` writes text as bytes. All arithmetic is on natural numbers, so that the laws of reading
back are statements about quotients and remainders.
-/

namespace Baseline

/-- A run of bytes: the content of a file, or a path as the disk stores it. -/
abbrev Bytes := List UInt8

namespace Utf8

/-! ## Writing -/

/-- The bytes of one character: one to four, six payload bits in each byte after the first. -/
def encodeChar (c : Char) : Bytes :=
  let n := c.toNat
  if n < 0x80 then [.ofNat n]
  else if n < 0x800 then [.ofNat (0xC0 + n / 64), .ofNat (0x80 + n % 64)]
  else if n < 0x10000 then
    [.ofNat (0xE0 + n / 4096), .ofNat (0x80 + n / 64 % 64), .ofNat (0x80 + n % 64)]
  else
    [.ofNat (0xF0 + n / 262144), .ofNat (0x80 + n / 4096 % 64), .ofNat (0x80 + n / 64 % 64),
      .ofNat (0x80 + n % 64)]

/-- The bytes of a text. -/
def encode (s : String) : Bytes := s.toList.flatMap encodeChar

/-! ## Reading -/

/-- A sequence that has begun: the payload read so far, how many bytes are still owed, and the
least and greatest byte that may come next. The bounds exclude overlong forms, surrogates and
values above U+10FFFF at the second byte already. -/
structure Pending where
  /-- the payload bits read so far -/
  payload : Nat
  /-- the bytes still owed after the next one -/
  owed : Nat
  /-- the least byte that may come next -/
  least : Nat
  /-- the greatest byte that may come next -/
  greatest : Nat
deriving DecidableEq, Repr

/-- What the first byte of a sequence says: a whole character, the start of a longer sequence, or
nothing that UTF-8 knows. -/
def start (b : Nat) : List (Option Char) × Option Pending :=
  if b < 0x80 then ([some (Char.ofNat b)], none)
  else if b < 0xC2 then ([none], none)
  else if b < 0xE0 then ([], some ⟨b - 0xC0, 0, 0x80, 0xBF⟩)
  else if b = 0xE0 then ([], some ⟨0, 1, 0xA0, 0xBF⟩)
  else if b = 0xED then ([], some ⟨0xD, 1, 0x80, 0x9F⟩)
  else if b < 0xF0 then ([], some ⟨b - 0xE0, 1, 0x80, 0xBF⟩)
  else if b = 0xF0 then ([], some ⟨0, 2, 0x90, 0xBF⟩)
  else if b < 0xF4 then ([], some ⟨b - 0xF0, 2, 0x80, 0xBF⟩)
  else if b = 0xF4 then ([], some ⟨4, 2, 0x80, 0x8F⟩)
  else ([none], none)

/-- One byte. Inside a sequence a byte in bounds continues it; any other byte leaves a hole for the
bytes read so far and is then read as a first byte itself. -/
def step : Option Pending → Nat → List (Option Char) × Option Pending
  | none, b => start b
  | some p, b =>
    if p.least ≤ b ∧ b ≤ p.greatest then
      let payload := p.payload * 64 + (b - 0x80)
      match p.owed with
      | 0 => ([some (Char.ofNat payload)], none)
      | owed + 1 => ([], some ⟨payload, owed, 0x80, 0xBF⟩)
    else
      let (out, next) := start b
      (none :: out, next)

/-- Reads on from a state. A sequence that the end of the bytes cuts off is one more hole. -/
def scalarsFrom : Option Pending → Bytes → List (Option Char)
  | none, [] => []
  | some _, [] => [none]
  | state, b :: bs =>
    let (out, next) := step state b.toNat
    out ++ scalarsFrom next bs

/-- Each well-formed sequence as `some` character and each maximal ill-formed run as `none`, from
left to right. -/
def scalars (bs : Bytes) : List (Option Char) := scalarsFrom none bs

/-- The text, if the bytes are UTF-8 throughout. -/
def decode? (bs : Bytes) : Option String := ((scalars bs).mapM id).map String.ofList

/-- The text for a reader: every ill-formed run shows as one U+FFFD. -/
def lossy (bs : Bytes) : String := String.ofList ((scalars bs).map (·.getD '\uFFFD'))

end Utf8

end Baseline
