import Baseline.Disk.Desk

/-!
# The machine a command runs on

All that a command can do: read the disk, what a batch and a sweep ask for, write on the two outputs
and keep a log file. The log file is opened once and then only grows.
-/

namespace Baseline.Command

/-- What a command can do. -/
structure Machine (m : Type → Type) where
  /-- reads the disk -/
  view : View m
  /-- does what a batch and a sweep ask for -/
  outside : Outside m
  /-- writes text on the output -/
  print : String → m Unit
  /-- writes a line on the error output -/
  complain : String → m Unit
  /-- adds a text to a file, which is made with the directories above it if it is missing -/
  append : Path → String → m (Except IoError Unit)

/-- The disk with a text added to a file. -/
def appended (d : Disk) (p : Path) (text : String) : Except Errno Disk :=
  let bytes := Utf8.encode text
  match d.updateFile p (· ++ bytes) with
  | .ok d' => .ok d'
  | .error _ => do
    let d ← match p.parent? with
      | some folder => d.makeDirectories folder
      | none => pure d
    d.updateFile p (· ++ bytes)

/-- The machine that a desk makes. -/
def deskMachine : Machine (StateM (Traced (Desk Disk Input))) where
  view := Desk.diskView
  outside := Desk.diskOutside Input.next
  print text := Traced.record (.printed text)
  complain line := Traced.record (.complained line)
  append p text :=
    Traced.onState (Desk.onStore (Disk.change fun d => Disk.request [p] (appended d p text)).run)

end Baseline.Command
