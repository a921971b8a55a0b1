import Baseline.Text.Utf8

/-!
# Path text

A path is a run of bytes with a meaning in the text itself, before any disk is asked:

* what it names (`names`, `isAbsolute`, `endsInSlash`);
* how it combines with another (`join`), what it lies in (`parent?`), and where it starts from the
  working directory (`absolute`).

None of these resolves `..` or a link: that is the disk's work.
-/

namespace Baseline

/-- A path as the disk is given it: any bytes, not only text. -/
structure Path where
  /-- the bytes of the path -/
  bytes : Bytes
deriving DecidableEq, Repr, Inhabited

namespace Path

/-- The byte that separates names. -/
def slash : UInt8 := 0x2F

/-- The name of a directory inside itself. -/
def here : Bytes := [0x2E]

/-- The name of the directory above. -/
def above : Bytes := [0x2E, 0x2E]

/-- The path that a text spells. -/
def ofString (s : String) : Path := ⟨Utf8.encode s⟩

/-- The path as text, if it is text. -/
def text? (p : Path) : Option String := Utf8.decode? p.bytes

/-- The path for a reader; bytes that are not text show as U+FFFD. -/
def display (p : Path) : String := Utf8.lossy p.bytes

/-- Whether the path starts at the top rather than at the working directory. -/
def isAbsolute (p : Path) : Bool := p.bytes.head? == some slash

/-- Whether the path insists on a directory. -/
def endsInSlash (p : Path) : Bool := p.bytes.getLast? == some slash

/-- The names along the path, `.` and `..` among them; repeated slashes do not count. -/
def names (p : Path) : List Bytes := (splitWhere (· == slash) p.bytes).filter (!·.isEmpty)

/-- The last name along the path, empty if there is none. -/
def lastName (p : Path) : Bytes := p.names.getLast?.getD []

/-- Bytes put behind one slash, which is added only if it is not there yet. -/
def underSlash (front back : Bytes) : Bytes :=
  if front.isEmpty || front.getLast? == some slash then front ++ back else front ++ slash :: back

/-- A path as seen from another: an absolute path stands for itself. -/
def join (p q : Path) : Path := if q.isAbsolute then q else ⟨underSlash p.bytes q.bytes⟩

/-- The path of a directory entry. -/
def entry (p : Path) (name : Bytes) : Path := ⟨underSlash p.bytes name⟩

/-- Names with a slash between each two. -/
def joinNames (names : List Bytes) : Bytes := [slash].intercalate names

/-! ## The folder of a path -/

/-- A piece of path text that names nothing of its own. -/
def isIdle (piece : Bytes) : Bool := piece.isEmpty || piece == here

/-- Drops idle pieces from the end. -/
def trimIdle (pieces : List Bytes) : List Bytes := (pieces.reverse.dropWhile isIdle).reverse

/-- The part of the text that stands before its names: a leading slash, a leading `.`, or
nothing. -/
def anchor (p : Path) : Bytes :=
  if p.isAbsolute then [slash]
  else if (splitWhere (· == slash) p.bytes).head? == some here then here
  else []

/-- The text without its last name, as it is spelled; `none` where there is no name to drop. A lone
`.` lies in the empty path. -/
def parent? (p : Path) : Option Path :=
  let anchor := p.anchor
  match trimIdle (splitWhere (· == slash) (p.bytes.drop anchor.length)) with
  | [] => if anchor == here then some ⟨[]⟩ else none
  | pieces@(_ :: _) => some ⟨anchor ++ joinNames (trimIdle pieces.dropLast)⟩

/-! ## Starting from the working directory -/

/-- What an absolute path starts with. Exactly two slashes are kept, since they may mean something
of their own; three or more are one. -/
def top (p : Path) : Path :=
  match p.bytes with
  | a :: b :: rest =>
    if a == slash && b == slash && rest.head? != some slash then ⟨[slash, slash]⟩ else ⟨[slash]⟩
  | _ => ⟨[slash]⟩

/-- The path seen from the top: `.` and repeated slashes go, `..`, links and a last slash stay as
they are spelled. -/
def absolute (cwd p : Path) : Path :=
  let base := if p.isAbsolute then p.top else cwd
  let whole := (p.names.filter (· != here)).foldl entry base
  if p.endsInSlash then whole.entry [] else whole

end Path

end Baseline
