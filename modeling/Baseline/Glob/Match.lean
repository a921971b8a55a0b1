import Baseline.Glob.Pattern

/-!
# Matching a glob pattern

A wildcard tries ever longer runs. A try can fail in two ways, and the difference is what keeps the
search short: at a character that does not fit (`mismatch`), after which a longer run may still
help, and for want of text (`exhausted`), after which it cannot, because a longer run leaves less.

Case counts, and no character is special to the wildcards: `*` runs over slashes and leading dots.
-/

namespace Baseline.Glob

/-- Whether a character is in a set. -/
def CharSet.has (c : Char) : CharSet → Bool
  | any => true
  | only d => c == d
  | within ranges => ranges.any fun r => r.first ≤ c && c ≤ r.last
  | outside ranges => !ranges.any fun r => r.first ≤ c && c ≤ r.last

/-- How a try ends. -/
inductive Verdict where
  /-- the whole text fits -/
  | matched
  /-- a character does not fit -/
  | mismatch
  /-- the text ends too early -/
  | exhausted
deriving DecidableEq, Repr

/-- The second try, if the first failed at a character. -/
def Verdict.orElse (first : Verdict) (second : Unit → Verdict) : Verdict :=
  match first with
  | .mismatch => second ()
  | v => v

/-- Any run of characters, then what `next` wants. -/
def anyRun (next : List Char → Verdict) : List Char → Verdict
  | [] => next []
  | c :: cs => (next (c :: cs)).orElse fun _ => anyRun next cs

/-- The places behind each slash, and at last the end of the text, for what `next` wants. -/
def afterSlashes (next : List Char → Verdict) : List Char → Verdict
  | [] => next []
  | c :: cs =>
    if c == '/' then (next cs).orElse fun _ => afterSlashes next cs else afterSlashes next cs

/-- Any run of whole components, then what `next` wants. -/
def anyComponents (next : List Char → Verdict) (cs : List Char) : Verdict :=
  (next cs).orElse fun _ => afterSlashes next cs

/-- What the steps say of a text. -/
def verdict : List Token → List Char → Verdict
  | [], cs => if cs.isEmpty then .matched else .mismatch
  | .one _ :: _, [] => .exhausted
  | .one set :: rest, c :: cs => if set.has c then verdict rest cs else .mismatch
  | .anySequence :: rest, cs => anyRun (verdict rest) cs
  | .anyDepth :: rest, cs => anyComponents (verdict rest) cs

/-- Whether the pattern fits the whole text. -/
def Pattern.fits (p : Pattern) (text : String) : Bool := verdict p.tokens text.toList == .matched

end Baseline.Glob
