import Baseline.Disk.Reading

/-!
# Changing the disk

The two changes that a run makes, and those that set the stage for it. Every change either is
refused, and then nothing has happened, or gives the new disk.

* `unlink` takes one entry away, never a directory;
* `rename` moves a node with all that is below it, and replaces what is in the way;
* `move` and `delete` are the two as what a run asks of the outside: a deletion of what is not there
  is no failure.
-/

namespace Baseline.Disk

/-! ## Taking away -/

/-- Takes the entry at a path away. A link is taken itself, not what it leads to. -/
def unlink (d : Disk) (p : Path) : Except Errno Disk := do
  let slot ← d.slot p
  match slot.name? with
  | none => throw .isDirectory
  | some name =>
    match ← d.lookUp slot.folder name with
    | none => throw .notFound
    | some (.directory _) =>
      if slot.strict then throw .isDirectory
      d.writable slot.folder
      throw .isDirectory
    | some _ =>
      if slot.strict then throw .notDirectory
      d.writable slot.folder
      return d.erase (slot.folder ++ [name])

/-! ## Moving -/

/-- Where a place is once the node at `source` is at `target`. -/
def rebase (source target place : Place) : Place :=
  if source.isPrefixOf place then target ++ place.drop source.length else place

/-- The disk with the node at `source`, and all that is below it, at `target`. -/
def relocate (d : Disk) (source target : Place) : Disk where
  nodes := (d.erase target).nodes.map fun (place, node) => (rebase source target place, node)
  cwd := rebase source target d.cwd
  superuser := d.superuser

/-- Whether a node may go onto what is in its way: a directory onto a directory, anything else onto
anything else. -/
def suits : Node → Option Node → Except Errno Unit
  | _, none => .ok ()
  | .directory _, some (.directory _) => .ok ()
  | .directory _, some _ => .error .notDirectory
  | _, some (.directory _) => .error .isDirectory
  | _, some _ => .ok ()

/-- Whether nothing lies in a place. -/
def vacant (d : Disk) (place : Place) : Except Errno Unit :=
  if (d.entriesAt place).isEmpty then .ok () else .error .notEmpty

/-- Whether a node may be taken out of one directory and put into another. A directory that moves
to another parent is changed itself. -/
def movable (d : Disk) (node : Node) (source target : Slot) : Except Errno Unit :=
  match node with
  | .directory rights =>
    if source.folder == target.folder || d.grants rights.write then .ok ()
    else .error .accessDenied
  | _ => .ok ()

/-- Moves the node at one path onto another path. -/
def rename (d : Disk) (p q : Path) : Except Errno Disk := do
  let source ← d.slot p
  let target ← d.slot q
  match source.name?, target.name? with
  | some sourceName, some targetName =>
    match ← d.lookUp source.folder sourceName with
    | none => throw .notFound
    | some node =>
      let inTheWay ← d.lookUp target.folder targetName
      let sourcePlace := source.folder ++ [sourceName]
      let targetPlace := target.folder ++ [targetName]
      if node.kind != .directory && (source.strict || target.strict) then throw .notDirectory
      if sourcePlace.isPrefixOf target.folder then throw .invalidArgument
      if targetPlace.isPrefixOf source.folder then throw .notEmpty
      if sourcePlace == targetPlace then return d
      d.writable source.folder
      d.writable target.folder
      suits node inTheWay
      d.movable node source target
      d.vacant targetPlace
      return d.relocate sourcePlace targetPlace
  | _, _ => throw .busy

/-! ## What a run asks for -/

/-- A change of the disk. A refused change leaves the disk as it is. -/
def change (f : Disk → Except IoError Disk) : ExceptT IoError (StateM Disk) Unit := do
  match f (← get) with
  | .ok d => set d
  | .error e => throw e

/-- Moves a file onto another path. -/
def move (received approved : String) : ExceptT IoError (StateM Disk) Unit :=
  let p := Path.ofString received
  let q := Path.ofString approved
  change fun d => request [p, q] (d.rename p q)

/-- Deletes what is at a path. If it is gone already, that is no failure. -/
def deleteAt (p : Path) : ExceptT IoError (StateM Disk) Unit :=
  change fun d =>
    match request [p] (d.unlink p) with
    | .ok d' => .ok d'
    | .error e => if e.isNotFound then .ok d else .error e

/-- Deletes a file. One that is gone already is no failure. -/
def delete (path : String) : ExceptT IoError (StateM Disk) Unit := deleteAt (Path.ofString path)

/-! ## Setting the stage -/

/-- Makes a directory; the one that is there already will do. -/
def makeDirectory (d : Disk) (p : Path) : Except Errno Disk := do
  match d.nodeAt true p with
  | .ok (.directory _) => return d
  | .ok _ => throw .alreadyExists
  | .error _ =>
    let slot ← d.slot p
    match slot.name? with
    | none => throw .alreadyExists
    | some name =>
      match ← d.lookUp slot.folder name with
      | some _ => throw .alreadyExists
      | none =>
        d.writable slot.folder
        return d.insert (slot.folder ++ [name]) (.directory .full)

/-- Makes a directory and those above it. -/
def makeDirectories (d : Disk) (p : Path) : Except Errno Disk :=
  let start : Path := ⟨if p.isAbsolute then [Path.slash] else []⟩
  ((waysDown p.names).drop 1).foldlM
    (fun d names => d.makeDirectory ⟨Path.underSlash start.bytes (Path.joinNames names)⟩) d

/-- Gives the file at a path a content made from the one it has; a missing file is made. -/
def updateFile (d : Disk) (p : Path) (f : Bytes → Bytes) : Except Errno Disk := do
  match d.locate true p with
  | .ok place =>
    match d.get? place with
    | some (.file content rights) =>
      if d.grants rights.write then return d.insert place (.file (f content) rights)
      else throw .accessDenied
    | _ => throw .isDirectory
  | .error .notFound =>
    let slot ← d.slot p
    match slot.name? with
    | none => throw .isDirectory
    | some name =>
      if slot.strict then throw .isDirectory
      match ← d.lookUp slot.folder name with
      | some _ => throw .notFound
      | none =>
        d.writable slot.folder
        return d.insert (slot.folder ++ [name]) (.file (f []) .full)
  | .error e => throw e

/-- Makes a link. -/
def makeLink (d : Disk) (p target : Path) : Except Errno Disk := do
  if target.bytes.isEmpty then throw .notFound
  let slot ← d.slot p
  match slot.name? with
  | none => throw .alreadyExists
  | some name =>
    match ← d.lookUp slot.folder name with
    | some _ => throw .alreadyExists
    | none =>
      d.writable slot.folder
      return d.insert (slot.folder ++ [name]) (.link target)

end Baseline.Disk
