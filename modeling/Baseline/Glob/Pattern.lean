/-!
# Glob patterns

The syntax of the patterns that pick files by name and prune paths:

* `?` is any character, `[a-z]` one of a set and `[!a-z]` one outside it;
* `*` is any run of characters, slashes included;
* `**` is any run of whole components, and must be a component by itself.

`Pattern.parse` reads a pattern or says where and why it is none. A `]` directly after the opening
bracket is a member of the set, and so is a `-` that has no character on both sides.
-/

namespace Baseline.Glob

/-- The characters from one to another, both included. -/
structure CharRange where
  /-- the least member -/
  first : Char
  /-- the greatest member -/
  last : Char
deriving DecidableEq, Repr

/-- What one place of the text may hold. -/
inductive CharSet where
  /-- any character -/
  | any
  /-- this character -/
  | only (c : Char)
  /-- a character in one of the ranges -/
  | within (ranges : List CharRange)
  /-- a character in none of the ranges -/
  | outside (ranges : List CharRange)
deriving DecidableEq, Repr

/-- A step of a pattern. -/
inductive Token where
  /-- one character -/
  | one (set : CharSet)
  /-- any run of characters -/
  | anySequence
  /-- any run of whole components -/
  | anyDepth
deriving DecidableEq, Repr

/-- A pattern: its steps in order. -/
structure Pattern where
  /-- the steps -/
  tokens : List Token
deriving DecidableEq, Repr

/-- Why a text is no pattern. -/
inductive PatternError.Cause where
  /-- three or more stars in a row -/
  | tooManyStars
  /-- two stars that share their component with something else -/
  | brokenComponent
  /-- a bracket that is never closed -/
  | unclosedSet
deriving DecidableEq, Repr

/-- Why, and near which character, a text is no pattern. -/
structure PatternError where
  /-- the character, counted from 0 -/
  position : Nat
  /-- the reason -/
  cause : PatternError.Cause
deriving DecidableEq, Repr

/-- The reason in words. -/
def PatternError.Cause.text : PatternError.Cause → String
  | tooManyStars => "wildcards are either regular `*` or recursive `**`"
  | brokenComponent => "recursive wildcards must form a single path component"
  | unclosedSet => "invalid range pattern"

/-- What a reader sees of the error. -/
def PatternError.message (e : PatternError) : String :=
  "Pattern syntax error near position " ++ toString e.position ++ ": " ++ e.cause.text

namespace Pattern

/-- The ranges in a set: `a-z` is a range, any other character a range of its own. -/
def ranges : List Char → List CharRange
  | a :: '-' :: b :: rest => ⟨a, b⟩ :: ranges rest
  | a :: rest => ⟨a, a⟩ :: ranges rest
  | [] => []

/-- Reads a set from behind its opening bracket: the set, how many characters it took, and the
rest. The first member is taken whatever it is. -/
def readSet (cs : List Char) : Option (CharSet × Nat × List Char) :=
  let close (wrap : List CharRange → CharSet) (lead : Nat) (first : Char) (tail : List Char) :=
    let more := tail.takeWhile (· != ']')
    if more.length < tail.length then
      some (wrap (ranges (first :: more)), lead + more.length + 2, tail.drop (more.length + 1))
    else none
  match cs with
  | '!' :: first :: tail => close .outside 1 first tail
  | ['!'] => none
  | first :: tail => close .within 0 first tail
  | [] => none

/-- Puts `**` in front. Two in a row are one. -/
def consDepth : List Token → List Token
  | tokens@(.anyDepth :: _) => tokens
  | tokens => .anyDepth :: tokens

/-- Reads the steps from a place in the pattern, given the character before it. Every step takes at
least one character, so `fuel` as great as the length of the text never ends early. -/
def parseFrom : Nat → Option Char → Nat → List Char → Except PatternError (List Token)
  | 0, _, _, _ => .ok []
  | _ + 1, _, _, [] => .ok []
  | fuel + 1, before, pos, c :: rest =>
    match c with
    | '?' => (parseFrom fuel (some c) (pos + 1) rest).map (.one .any :: ·)
    | '*' =>
      let more := rest.takeWhile (· == '*')
      let tail := rest.drop more.length
      match more.length with
      | 0 => (parseFrom fuel (some c) (pos + 1) tail).map (.anySequence :: ·)
      | 1 =>
        if before.all (· == '/') then
          match tail with
          | [] => .ok [.anyDepth]
          | '/' :: tail => (parseFrom fuel (some '/') (pos + 3) tail).map consDepth
          | _ => .error ⟨pos + 2, .brokenComponent⟩
        else .error ⟨pos - 1, .brokenComponent⟩
      | _ => .error ⟨pos + 2, .tooManyStars⟩
    | '[' =>
      match readSet rest with
      | some (set, taken, tail) =>
        (parseFrom fuel (some ']') (pos + 1 + taken) tail).map (.one set :: ·)
      | none => .error ⟨pos, .unclosedSet⟩
    | _ => (parseFrom fuel (some c) (pos + 1) rest).map (.one (.only c) :: ·)

/-- Reads a pattern. -/
def parse (text : String) : Except PatternError Pattern :=
  (parseFrom text.toList.length none 0 text.toList).map (⟨·⟩)

end Pattern

end Baseline.Glob
