import Baseline.Lookup
import Baseline.Path

/-!
# The disk

A disk is a flat map from places to nodes. A place is the names on the way down from the top, so
the parent of a place is the place without its last name, and a directory knows nothing of what is
in it. What a change leaves alone is then a statement about look-ups (`get?_erase`, `get?_insert`).

Files and directories carry the rights of their owner; for the superuser every right is granted.
A link carries the path it stands for.
-/

namespace Baseline

/-- Where a node is: the names from the top. The top itself is the empty list. -/
abbrev Place := List Bytes

/-- What the owner of a node may do with it. -/
structure Rights where
  /-- read a file, list a directory -/
  read : Bool
  /-- write a file, add and remove entries of a directory -/
  write : Bool
  /-- go through a directory -/
  search : Bool
deriving DecidableEq, Repr

/-- Every right. -/
def Rights.full : Rights := ⟨true, true, true⟩

/-- What is at a place. -/
inductive Node where
  /-- a file and its content -/
  | file (content : Bytes) (rights : Rights)
  /-- a link and the path it stands for -/
  | link (target : Path)
  /-- a directory -/
  | directory (rights : Rights)
deriving DecidableEq, Repr

/-- The kinds of nodes. -/
inductive Node.Kind where
  /-- a file -/
  | file
  /-- a link -/
  | link
  /-- a directory -/
  | directory
deriving DecidableEq, Repr

/-- The kind of a node. -/
def Node.kind : Node → Node.Kind
  | file _ _ => .file
  | link _ => .link
  | directory _ => .directory

/-- An entry of a directory. -/
structure Entry where
  /-- its name -/
  name : Bytes
  /-- its kind -/
  kind : Node.Kind
deriving DecidableEq, Repr

/-- A disk, and who works on it from where. -/
structure Disk where
  /-- what is where -/
  nodes : List (Place × Node)
  /-- where relative paths start -/
  cwd : Place
  /-- whether rights do not matter -/
  superuser : Bool
deriving DecidableEq, Repr

namespace Disk

/-- The node at a place. -/
def get? (d : Disk) (place : Place) : Option Node := d.nodes.lookup place

/-- The disk without the node at a place. -/
def erase (d : Disk) (place : Place) : Disk :=
  { d with nodes := d.nodes.filter (·.1 != place) }

/-- The disk with a node at a place, whatever was there before. -/
def insert (d : Disk) (place : Place) (node : Node) : Disk :=
  { d with nodes := (d.erase place).nodes ++ [(place, node)] }

theorem get?_erase (d : Disk) (place other : Place) :
    (d.erase place).get? other = if other = place then none else d.get? other := by
  by_cases h : other = place
  · subst h
    simp [get?, erase, lookup_filter_self]
  · simp [get?, erase, h, lookup_filter_of_ne h]

theorem get?_insert (d : Disk) (place other : Place) (node : Node) :
    (d.insert place node).get? other = if other = place then some node else d.get? other := by
  by_cases h : other = place
  · subst h
    simp [get?, insert, erase, List.lookup_append, lookup_filter_self]
  · have hb : (other == place) = false := beq_eq_false_iff_ne.2 h
    simp [get?, insert, erase, List.lookup_append, List.lookup_cons, hb, h, lookup_filter_of_ne h]

/-- Whether a right counts as granted. -/
def grants (d : Disk) (right : Bool) : Bool := d.superuser || right

/-- Whether a place is directly in another. -/
def isIn (place folder : Place) : Bool := !place.isEmpty && place.dropLast == folder

/-- The entries of a directory. -/
def entriesAt (d : Disk) (folder : Place) : List Entry :=
  (d.nodes.filter fun (place, _) => isIn place folder).map fun (place, node) =>
    ⟨place.getLast?.getD [], node.kind⟩

/-- The absolute path of a place. -/
def pathOf (place : Place) : Path := ⟨Path.slash :: Path.joinNames place⟩

/-- The ways down to a place: the top, each directory on the way, and the place itself. -/
def waysDown (place : Place) : List Place :=
  (List.range (place.length + 1)).map place.take

/-- A disk with nothing but the given directory and those above it, which is where paths start. -/
def bare (cwd : Place) : Disk where
  nodes := (waysDown cwd).map fun place => (place, .directory .full)
  cwd := cwd
  superuser := true

end Disk

end Baseline
