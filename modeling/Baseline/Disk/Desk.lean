import Baseline.Desk
import Baseline.Disk.Change

/-!
# A desk with a disk on it

The outside of a run whose files are on a disk, with every effect on record. Reading leaves no
trace, and neither changes the disk nor uses up an answer.
-/

namespace Baseline.Desk

variable {ι : Type}

/-- What a run reads. -/
def diskView : View (StateM (Traced (Desk Disk ι))) :=
  (Disk.view.through onStore).through Traced.onState

/-- What a run asks for, with answers from a source. -/
def diskOutside (next : ExceptT IoError (StateM ι) String) :
    Outside (StateM (Traced (Desk Disk ι))) :=
  Traced.outside (outside Disk.move Disk.delete next)

end Baseline.Desk
