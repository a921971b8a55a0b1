import Baseline.Disk
import Baseline.Failure

/-!
# From a path to a place

A path is followed name by name. Before each name the directory reached so far must grant search;
then `.` stays, `..` goes up, and any other name is looked up. A link is replaced by the path it
stands for, which happens at most `linkLimit` times along one path.

* `follow` goes along the names, and hands a link over to `expand`;
* `resolve` ties the knot: it is `follow` with itself, less one link, as `expand`;
* `locate` and `slot` are the two ways in: the place of a path, and the directory and the name in it
  that a path would give to a new entry.
-/

namespace Baseline.Disk

/-- A path is shorter than this many bytes. -/
def pathLimit : Nat := 4096

/-- A name has at most this many bytes. -/
def nameLimit : Nat := 255

/-- At most this many links are replaced along one path. -/
def linkLimit : Nat := 40

/-- Whether a place is a directory that grants a right. -/
def permits (d : Disk) (right : Rights → Bool) (place : Place) : Except Errno Unit :=
  match d.get? place with
  | some (.directory rights) => if d.grants (right rights) then .ok () else .error .accessDenied
  | some _ => .error .notDirectory
  | none => .error .notFound

/-- Whether names may be looked up in a directory. -/
def searchable (d : Disk) (place : Place) : Except Errno Unit := d.permits Rights.search place

/-- Follows names from a directory. `through` says whether a link at the very end is replaced too,
and `strict` whether the end must be a directory. -/
def follow (d : Disk) (expand : Place → List Bytes → Bool → Except Errno Place) (through : Bool) :
    Place → List Bytes → Bool → Except Errno Place
  | here, [], _ => .ok here
  | here, name :: rest, strict => do
    d.searchable here
    if name == Path.here then follow d expand through here rest strict
    else if name == Path.above then follow d expand through here.dropLast rest strict
    else if nameLimit < name.length then .error .nameTooLong
    else
      let place := here ++ [name]
      match d.get? place with
      | none => .error .notFound
      | some (.directory _) => follow d expand through place rest strict
      | some (.file _ _) => if rest.isEmpty && !strict then .ok place else .error .notDirectory
      | some (.link target) =>
        if rest.isEmpty && !strict && !through then .ok place
        else
          expand (if target.isAbsolute then [] else here) (target.names ++ rest)
            (strict || rest.isEmpty && target.endsInSlash)

/-- Follows names from a directory, replacing at most so many links. -/
def resolve (d : Disk) (through : Bool) : Nat → Place → List Bytes → Bool → Except Errno Place
  | 0 => follow d (fun _ _ _ => .error .linkLoop) through
  | links + 1 => follow d (resolve d through links) through

/-- Whether the disk takes a path at all. -/
def accepts (p : Path) : Except Errno Unit :=
  if p.bytes.isEmpty then .error .notFound
  else if pathLimit ≤ p.bytes.length then .error .nameTooLong
  else .ok ()

/-- Where a path starts. -/
def origin (d : Disk) (p : Path) : Place := if p.isAbsolute then [] else d.cwd

/-- The place of a path. -/
def locate (d : Disk) (through : Bool) (p : Path) : Except Errno Place := do
  accepts p
  d.resolve through linkLimit (d.origin p) p.names p.endsInSlash

/-- The place that a path gives to an entry, whether or not there is one. -/
structure Slot where
  /-- the directory -/
  folder : Place
  /-- the name in it; none where the path ends in `.` or `..` or is the top -/
  name? : Option Bytes
  /-- whether the path insists on a directory -/
  strict : Bool
deriving DecidableEq, Repr

/-- The slot of a path: all names but the last are followed. -/
def slot (d : Disk) (p : Path) : Except Errno Slot := do
  accepts p
  match p.names.getLast? with
  | none => return ⟨[], none, p.endsInSlash⟩
  | some last =>
    let folder ← d.resolve true linkLimit (d.origin p) p.names.dropLast true
    d.searchable folder
    let name? := if last == Path.here || last == Path.above then none else some last
    return ⟨folder, name?, p.endsInSlash⟩

/-- What is in a slot's directory under a name. -/
def lookUp (d : Disk) (folder : Place) (name : Bytes) : Except Errno (Option Node) :=
  if nameLimit < name.length then .error .nameTooLong else .ok (d.get? (folder ++ [name]))

/-- Whether entries of a directory may be added and removed. -/
def writable (d : Disk) (folder : Place) : Except Errno Unit := d.permits Rights.write folder

end Baseline.Disk
