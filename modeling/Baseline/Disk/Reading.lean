import Baseline.Disk.Resolve

/-!
# Reading the disk

What a program can learn without changing anything: the kind of a node, the content of a file and
the entries of a directory. `View m` bundles these for a monad, so that the code that reads runs on
values (`Disk.view`) and on real files alike.
-/

namespace Baseline

/-- What a run may read. -/
structure View (m : Type → Type) where
  /-- the kind of what is at a path, a link counting as a link -/
  kind : Path → ExceptT IoError m Node.Kind
  /-- the kind of what a path leads to -/
  targetKind : Path → ExceptT IoError m Node.Kind
  /-- the content of a file -/
  content : Path → ExceptT IoError m Bytes
  /-- the entries of a directory, in any order -/
  entries : Path → ExceptT IoError m (List Entry)
  /-- the working directory -/
  here : m Path

/-- A view through another monad. -/
def View.through {m n : Type → Type} (v : View m) (f : ∀ {α : Type}, m α → n α) : View n where
  kind p := ExceptT.mk (f (v.kind p).run)
  targetKind p := ExceptT.mk (f (v.targetKind p).run)
  content p := ExceptT.mk (f (v.content p).run)
  entries p := ExceptT.mk (f (v.entries p).run)
  here := f v.here

namespace Disk

/-- The node that a path leads to, or is if links at the end stay. -/
def nodeAt (d : Disk) (through : Bool) (p : Path) : Except Errno Node := do
  let place ← d.locate through p
  match d.get? place with
  | some node => return node
  | none => throw .notFound

/-- The content of the file that a path leads to. -/
def readFile (d : Disk) (p : Path) : Except Errno Bytes := do
  match ← d.nodeAt true p with
  | .file content rights =>
    if d.grants rights.read then return content else throw .accessDenied
  | .directory rights =>
    throw (if d.grants rights.read then .isDirectory else .accessDenied)
  | .link _ => throw .linkLoop

/-- The entries of the directory that a path leads to. -/
def readDirectory (d : Disk) (p : Path) : Except Errno (List Entry) := do
  let place ← d.locate true p
  match d.get? place with
  | some (.directory rights) =>
    if d.grants rights.read then return d.entriesAt place else throw .accessDenied
  | some _ => throw .notDirectory
  | none => throw .notFound

/-- A request about some paths. With a zero byte in one it does not reach the disk. -/
def request {α : Type} (paths : List Path) (answer : Except Errno α) : Except IoError α :=
  if paths.any (·.bytes.contains 0) then .error .zeroByte
  else
    match answer with
    | .ok a => .ok a
    | .error e => .error (.os e)

/-- A question to the disk. -/
def query {α : Type} (p : Path) (answer : Disk → Except Errno α) :
    ExceptT IoError (StateM Disk) α :=
  ExceptT.mk (return request [p] (answer (← get)))

/-- The disk as what a run may read. -/
def view : View (StateM Disk) where
  kind p := query p fun d => (d.nodeAt false p).map Node.kind
  targetKind p := query p fun d => (d.nodeAt true p).map Node.kind
  content p := query p fun d => d.readFile p
  entries p := query p fun d => d.readDirectory p
  here := return pathOf (← get).cwd

end Disk

end Baseline
