import Baseline.Toml.Number

/-!
# TOML dates and times

A date, a time, or both, and with both perhaps an offset. The text of one is the canonical form:
`T` between date and time, and fractions of a second without zeros at the end.
-/

namespace Baseline.Toml

open Reader

/-- A day of the calendar. -/
structure Date where
  /-- the year -/
  year : Nat
  /-- the month, from 1 -/
  month : Nat
  /-- the day, from 1 -/
  day : Nat
deriving DecidableEq, Repr

/-- A time of the day. -/
structure Time where
  /-- the hour -/
  hour : Nat
  /-- the minute -/
  minute : Nat
  /-- the second; 60 is a leap second -/
  second : Nat
  /-- the parts of a second -/
  nanosecond : Nat
deriving DecidableEq, Repr

/-- How far a time is from universal time. -/
inductive Offset where
  /-- not at all -/
  | zulu
  /-- so many minutes -/
  | minutes (n : Int)
deriving DecidableEq, Repr

/-- A date, a time, or both. -/
structure Moment where
  /-- the day -/
  date : Option Date
  /-- the time -/
  time : Option Time
  /-- the offset -/
  offset : Option Offset
deriving DecidableEq, Repr

/-! ## Reading -/

/-- A number of exactly so many digits, within bounds. -/
def digitsWithin (n least greatest : Nat) : Reader Nat := do
  let value := digitsValue (← exactly Char.isDigit n)
  if least ≤ value && value ≤ greatest then return value else failure

/-- Whether a year has a 29th of February. -/
def isLeap (year : Nat) : Bool := year % 4 == 0 && (year % 100 != 0 || year % 400 == 0)

/-- How many days a month has. -/
def daysIn (year month : Nat) : Nat :=
  if month == 2 then (if isLeap year then 29 else 28)
  else if [4, 6, 9, 11].contains month then 30
  else 31

/-- A date. -/
def date : Reader Date := do
  let year ← digitsWithin 4 0 9999
  char '-'
  let month ← digitsWithin 2 1 12
  char '-'
  let day ← digitsWithin 2 1 (daysIn year month)
  return ⟨year, month, day⟩

/-- The parts of a second: nine digits count, the rest is cut off. -/
def nanosecond : Reader Nat := do
  char '.'
  let ds := (← takeWhile1 Char.isDigit).take 9
  return digitsValue ds * tenTo (9 - ds.length)

/-- A time. The last hour of the day is a parameter. -/
def time (lastHour : Nat) : Reader Time := do
  let hour ← digitsWithin 2 0 lastHour
  char ':'
  let minute ← digitsWithin 2 0 59
  char ':'
  let second ← digitsWithin 2 0 60
  let fraction ← maybe nanosecond
  return ⟨hour, minute, second, fraction.getD 0⟩

/-- An offset, of hours and minutes that are allowed together. -/
def offset (allowed : Nat → Nat → Bool) : Reader Offset := do
  let c ← satisfy fun c => c == 'Z' || c == 'z' || c == '+' || c == '-'
  if c == 'Z' || c == 'z' then return .zulu
  else
    let hour ← digitsWithin 2 0 99
    char ':'
    let minute ← digitsWithin 2 0 99
    if !allowed hour minute then failure
    let n : Int := hour * 60 + minute
    return .minutes (if c == '-' then -n else n)

/-- What follows a date: `T` or a blank, a time, and perhaps an offset. -/
def timeBehindDate (lastHour : Nat) (allowed : Nat → Nat → Bool) :
    Reader (Time × Option Offset) := do
  let _ ← satisfy fun c => c == 'T' || c == 't' || c == ' '
  let t ← time lastHour
  let o ← maybe (offset allowed)
  return (t, o)

/-- A date, a time, or both, with bounds for the hour and the offset. -/
def momentWithin (lastHour : Nat) (allowed : Nat → Nat → Bool) : Reader Moment :=
  (do
    let d ← date
    match ← maybe (timeBehindDate lastHour allowed) with
    | none => return ⟨some d, none, none⟩
    | some (t, o) => return ⟨some d, some t, o⟩) <|>
  (do
    let t ← time lastHour
    return ⟨none, some t, none⟩)

/-- A date, a time, or both, as a document writes it. -/
def moment : Reader Moment := momentWithin 23 fun hour minute => hour ≤ 23 && minute ≤ 59

/-- The moment that a text spells by itself. The bounds are wider here: a day may end at hour 24, and
an offset is whatever comes to a day at most. -/
def Moment.ofText? (text : String) : Option Moment :=
  (momentWithin 24 fun hour minute => hour * 60 + minute ≤ 1440).whole text.toList

/-! ## Text -/

/-- A number with zeros in front, so many digits wide. -/
def padded (width n : Nat) : List Char :=
  let ds := digitsText n
  List.replicate (width - ds.length) '0' ++ ds

/-- The text of a date. -/
def Date.text (d : Date) : List Char :=
  padded 4 d.year ++ '-' :: padded 2 d.month ++ '-' :: padded 2 d.day

/-- The text of the parts of a second. -/
def fractionText (n : Nat) : List Char :=
  if n = 0 then []
  else '.' :: ((padded 9 n).reverse.dropWhile (· == '0')).reverse

/-- The text of a time. -/
def Time.text (t : Time) : List Char :=
  padded 2 t.hour ++ ':' :: padded 2 t.minute ++ ':' :: padded 2 t.second ++
    fractionText t.nanosecond

/-- The text of an offset. -/
def Offset.text : Offset → List Char
  | zulu => ['Z']
  | minutes n =>
    (if n < 0 then '-' else '+') :: padded 2 (n.natAbs / 60) ++ ':' :: padded 2 (n.natAbs % 60)

/-- The text of a date, a time, or both. -/
def Moment.text (m : Moment) : String :=
  let d := (m.date.map Date.text).getD []
  let t := (m.time.map Time.text).getD []
  let between := if m.date.isSome && m.time.isSome then ['T'] else []
  String.ofList (d ++ between ++ t ++ (m.offset.map Offset.text).getD [])

end Baseline.Toml
