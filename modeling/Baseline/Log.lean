import Baseline.Disk.Reading
import Baseline.Error
import Baseline.Text.Line

/-!
# Logs

The test framework leaves logs with one entry on each line. A log that cannot be read, or is not
text, ends the run before anything is done.
-/

namespace Baseline

/-- The lines of the log at a path. -/
def readLog {m : Type → Type} [Monad m] (v : View m) (p : Path) :
    ExceptT Error m (List String) := do
  match ← ExceptT.lift (v.content p).run with
  | .error e => throw (.unreadableLog p e)
  | .ok bytes =>
    match Utf8.decode? bytes with
    | none => throw (.unreadableLog p .notText)
    | some text => return Line.all text

end Baseline
