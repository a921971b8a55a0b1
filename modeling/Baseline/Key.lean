import Baseline.Text.Split

/-!
# Comparison keys

Two spellings of a path name the same baseline when they have the same key: `/` and `\` are one
separator, and empty parts and `.` parts do not count. `..` is kept, because dropping it would need
to know the disk.

A key is data (`Key`), its text is `Key.text`, and everything a report shows of a path, its name and
its folder, is read off the key. `Key.folder` is again a key, so a folder is shown in the same
spelling as a path.
-/

namespace Baseline

/-- A path up to spelling: whether it starts at the top, and its parts. -/
structure Key where
  /-- whether the path starts with a separator -/
  rooted : Bool
  /-- the parts that count, none of them empty or `.` -/
  parts : List String
deriving DecidableEq, Repr, Hashable

namespace Key

/-- Either slash separates. -/
def isSeparator (c : Char) : Bool := c == '/' || c == '\\'

/-- Empty parts and `.` say nothing. -/
def counts (part : String) : Bool := part != "" && part != "."

/-- The key of a path. -/
def ofPath (path : String) : Key where
  rooted := path.toList.head?.any isSeparator
  parts := ((splitWhere isSeparator path.toList).map String.ofList).filter counts

/-- The parts with a slash between each two. -/
def joined (parts : List String) : String := "/".intercalate parts

/-- The one spelling that stands for all: a leading `/` if rooted, and `.` if nothing is left. -/
def text (k : Key) : String :=
  match k.rooted, k.parts with
  | true, parts => "/" ++ joined parts
  | false, [] => "."
  | false, parts => joined parts

/-- The last part, empty if there is none. -/
def name (k : Key) : String := k.parts.getLast?.getD ""

/-- The key without its last part. -/
def folder (k : Key) : Key := { k with parts := k.parts.dropLast }

end Key

/-- The comparison text of a path. -/
def keyText (path : String) : String := (Key.ofPath path).text

/-- The last component of a path, as reports show it. -/
def nameOf (path : String) : String := (Key.ofPath path).name

/-- The folder of a path, as reports show it: `.` or `/` where there is no part before the last. -/
def folderOf (path : String) : String := (Key.ofPath path).folder.text

end Baseline
