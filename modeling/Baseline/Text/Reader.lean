/-!
# Reading text from the front

A `Reader` takes something off the front of a text, or refuses and leaves the text as it was. The
loop `many` is bounded by the length of the text, because a step that takes nothing would go on for
ever.
-/

namespace Baseline

/-- Takes something off the front of a text, or refuses. -/
abbrev Reader := StateT (List Char) Option

namespace Reader

variable {α β : Type}

/-- Takes a character of a kind. -/
def satisfy (p : Char → Bool) : Reader Char := do
  match ← get with
  | [] => failure
  | c :: cs => if p c then do set cs; return c else failure

/-- Takes one character. -/
def char (c : Char) : Reader Unit := do
  let _ ← satisfy (· == c)

/-- Takes a word. -/
def word (w : String) : Reader Unit := do
  let cs ← get
  if w.toList.isPrefixOf cs then set (cs.drop w.toList.length) else failure

/-- Takes characters as long as they are of a kind. -/
def takeWhile (p : Char → Bool) : Reader (List Char) := do
  let cs ← get
  set (cs.dropWhile p)
  return cs.takeWhile p

/-- Takes characters of a kind, at least one. -/
def takeWhile1 (p : Char → Bool) : Reader (List Char) := do
  let c ← satisfy p
  let cs ← takeWhile p
  return c :: cs

/-- Takes exactly so many characters of a kind. -/
def exactly (p : Char → Bool) : Nat → Reader (List Char)
  | 0 => return []
  | n + 1 => do
    let c ← satisfy p
    let cs ← exactly p n
    return c :: cs

/-- Takes something if it is there. -/
def maybe (r : Reader α) : Reader (Option α) := some <$> r <|> pure none

/-- Takes something as often as it is there, at most so many times. -/
def upTo (r : Reader α) : Nat → Reader (List α)
  | 0 => return []
  | n + 1 => do
    match ← maybe r with
    | none => return []
    | some a =>
      let as ← upTo r n
      return a :: as

/-- Takes something as often as it is there. -/
def many (r : Reader α) : Reader (List α) := do
  let cs ← get
  upTo r cs.length

/-- Takes items with a separator between each two; perhaps none. -/
def separated (item : Reader α) (separator : Reader Unit) : Reader (List α) := do
  match ← maybe item with
  | none => return []
  | some a =>
    let as ← many (do separator; item)
    return a :: as

/-- Refuses unless the text is used up. -/
def ended : Reader Unit := do
  if (← get).isEmpty then return () else failure

/-- Whether a character comes next. -/
def sees (p : Char → Bool) : Reader Bool := return (← get).head?.any p

/-- What a reader finds in a text that it has to use up. -/
def whole (r : Reader α) (cs : List Char) : Option α :=
  match r.run cs with
  | some (a, []) => some a
  | _ => none

end Reader

end Baseline
