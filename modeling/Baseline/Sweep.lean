import Baseline.Outside
import Baseline.Sweep.Mode
import Baseline.Sweep.Stray

/-!
# Sweeping abandoned baselines

A sweep lists the strays, asks if the mode says so, deletes, and says what it did. The order is
fixed: nothing is asked before the whole listing is written, and nothing is deleted before the
answer is in. The first deletion that fails ends the sweep.
-/

namespace Baseline

/-- What a sweep found and did. -/
structure Sweep where
  /-- the keys of the strays, in the order of the disk -/
  strays : List String
  /-- how many of them were deleted -/
  deleted : Nat
deriving DecidableEq, Repr

namespace Sweep

/-- The question before a deletion. -/
def question : String := "Delete? [Y/n]"

/-- Whether an answer agrees. An empty line takes the default, which is yes. -/
def agrees (answer : String) : Bool := answer == "Y" || answer == "y" || answer == ""

/-- The lines after a deletion. -/
def deletedLines (n : Nat) : List String := ["", "Deleted " ++ toString n ++ " files."]

/-- The line where nothing was deleted. -/
def keptLine : String := "No files were deleted."

variable {m : Type → Type} [Monad m]

/-- Whether the strays may be deleted. Only the prompting mode writes the question and reads an
answer. -/
def mayDelete (o : Outside m) : Mode → ExceptT Error m Bool
  | .delete => return true
  | .dryRun => return false
  | .prompt => do
    failing (o.say question)
    return agrees (← failing o.ask)

/-- Sweeps: the baselines on disk that are not touched are listed, and deleted if the mode and the
user allow it. -/
def run (o : Outside m) (mode : Mode) (touched onDisk : List String) : ExceptT Error m Sweep := do
  let found := Baseline.strays touched onDisk
  failing (o.sayAll (listing found))
  let allowed ← if found.isEmpty then pure false else mayDelete o mode
  if allowed then
    failing (o.deleteAll found)
    failing (o.sayAll (deletedLines found.length))
    return ⟨found, found.length⟩
  else
    failing (o.say keptLine)
    return ⟨found, 0⟩

end Sweep

end Baseline
