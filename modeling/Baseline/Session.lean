import Baseline.Comparison.Batch
import Baseline.Disk.Desk
import Baseline.Log
import Baseline.Scan
import Baseline.Settings
import Baseline.Sweep

/-!
# Sessions

The two things that a user asks for, from the settings to the report: accepting what failed, and
sweeping what no test touched. Each reads its log first, so a log that cannot be read leaves the
disk as it is.

`accept` and `sweep` run in any monad; `acceptOn` and `sweepOn` are the same sessions as functions on
a desk.
-/

namespace Baseline.Session

section

variable {m : Type → Type} [Monad m]

/-- Accepts every pending comparison in the log. -/
def accept (v : View m) (o : Outside m) (s : Settings) : ExceptT Error m Outcome := do
  let lines ← readLog v s.comparisonLogPath
  acceptLog o lines

/-- The scan root seen from the top, so that what is found compares equal to the absolute paths in
the log. Links on the way stay as they are written. -/
def scanRoot (v : View m) (s : Settings) : ExceptT Error m Path := do
  let root := s.scanRootPath
  if root.bytes.isEmpty then throw (.io .emptyPath)
  return Path.absolute (← ExceptT.lift v.here) root

/-- The note about a baseline whose path is not text. -/
def notText (p : Path) : Note :=
  ⟨.warn, .session, "Skipping approved file with a non UTF-8 name: " ++ p.display⟩

/-- The paths that are text. The others are noted and dropped. -/
def textPaths (note : Note → m Unit) : List Path → m (List String)
  | [] => return []
  | p :: ps => do
    match p.text? with
    | some text =>
      let rest ← textPaths note ps
      return text :: rest
    | none =>
      note (notText p)
      textPaths note ps

/-- Sweeps the baselines that no test touched. -/
def sweep (v : View m) (o : Outside m) (s : Settings) (mode : Mode) : ExceptT Error m Sweep := do
  let touched ← readLog v s.touchedLogPath
  let root ← scanRoot v s
  let found ← Scan.run v o.note root s.baselineName s.ignored
  let onDisk ← ExceptT.lift (textPaths o.note found)
  Sweep.run o mode touched onDisk

end

section

variable {ι : Type} (next : ExceptT IoError (StateM ι) String) (s : Settings)

/-- Accepts on a desk: what came of it, and the desk afterwards. -/
def acceptOn (t : Traced (Desk Disk ι)) : Except Error Outcome × Traced (Desk Disk ι) :=
  (accept Desk.diskView (Desk.diskOutside next) s).run.run t

/-- Sweeps on a desk: what came of it, and the desk afterwards. -/
def sweepOn (mode : Mode) (t : Traced (Desk Disk ι)) : Except Error Sweep × Traced (Desk Disk ι) :=
  (sweep Desk.diskView (Desk.diskOutside next) s mode).run.run t

end

end Baseline.Session
