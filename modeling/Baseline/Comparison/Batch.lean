import Baseline.Comparison
import Baseline.Key
import Baseline.Outside

/-!
# Accepting a batch

Every received file is moved onto its baseline. A move that fails is noted and counted, and the
batch goes on; what came of each record is first collected (`Accepted`), and the outcome, the
report and the counts are read off that list.

* `Outcome.report` is the whole report as a list of lines;
* `acceptLog` parses the log before the first move, so a bad line leaves every file where it is.
-/

namespace Baseline

/-- A baseline that could not be replaced. Its path is held as the report shows it: as text, with
U+FFFD in place of bytes that are no UTF-8. A path out of the log is text already. -/
structure FailedMove where
  /-- the baseline -/
  approved : String
  /-- why it could not be replaced -/
  reason : String
deriving DecidableEq, Repr

/-- What came of a batch. The paths are held as the report shows them, as those of `FailedMove`
are. -/
structure Outcome where
  /-- how many records the batch had -/
  recordCount : Nat
  /-- the baselines replaced, in order -/
  approved : List String
  /-- the baselines that could not be replaced, in order -/
  failed : List FailedMove
deriving DecidableEq, Repr

/-! ## The report -/

namespace Outcome

/-- The line that says how many records there were. -/
def headline : Nat → String
  | 0 => "No mismatched files found."
  | 1 => "Mismatched file found."
  | _ => "Mismatched files found."

/-- The bullet of a path. -/
def bullet (path : String) : String := "  - " ++ nameOf path

/-- The section of the baselines that were replaced; without any there is no section. -/
def approvedSection : List String → List String
  | [] => []
  | paths => "Updating:" :: paths.map bullet

/-- The section of the baselines that were not; without any there is no section. -/
def failedSection : List FailedMove → List String
  | [] => []
  | moves =>
    "Failed to update:" :: moves.flatMap fun f => [bullet f.approved, "    Reason: " ++ f.reason]

/-- The line that counts the baselines replaced. -/
def tally : Nat → String
  | 1 => "Approved 1 file."
  | n => "Approved " ++ toString n ++ " files."

/-- The report on a batch. -/
def report (o : Outcome) : List String :=
  [headline o.recordCount] ++ approvedSection o.approved ++ failedSection o.failed ++
    ["", tally o.approved.length]

end Outcome

/-! ## The batch -/

/-- A record that was tried, and why it failed if it did. -/
structure Accepted where
  /-- the record -/
  comparison : Comparison
  /-- why its move failed -/
  failure : Option String
deriving DecidableEq, Repr

/-- What came of records that were tried. -/
def Outcome.of (tried : List Accepted) : Outcome where
  recordCount := tried.length
  approved := (tried.filter (·.failure.isNone)).map (·.comparison.approved)
  failed := tried.filterMap fun a => a.failure.map fun reason => ⟨a.comparison.approved, reason⟩

/-- The note about a move that failed. -/
def moveFailed (c : Comparison) (reason : String) : Note :=
  ⟨.warn, .batch, "Failed to move '" ++ c.received ++ "' to '" ++ c.approved ++ "': " ++ reason⟩

section

variable {m : Type → Type} [Monad m]

/-- Tries one record. A failure is noted. -/
def accept (o : Outside m) (c : Comparison) : m Accepted := do
  match ← (o.move c.received c.approved).run with
  | .ok () => return ⟨c, none⟩
  | .error e =>
    o.note (moveFailed c e.text)
    return ⟨c, some e.text⟩

/-- Tries every record, in order. -/
def acceptEach (o : Outside m) : List Comparison → m (List Accepted)
  | [] => return []
  | c :: cs => do
    let a ← accept o c
    let rest ← acceptEach o cs
    return a :: rest

/-- Tries every record and sums up. -/
def acceptAll (o : Outside m) (cs : List Comparison) : m Outcome :=
  return Outcome.of (← acceptEach o cs)

/-- Accepts what the lines of a log ask for, and writes the report. -/
def acceptLog (o : Outside m) (lines : List String) : ExceptT Error m Outcome := do
  match Comparison.parseAll lines with
  | .error e => throw e
  | .ok records =>
    let outcome ← ExceptT.lift (acceptAll o records)
    failing (o.sayAll outcome.report)
    return outcome

end

end Baseline
