import Baseline.Disk.Reading
import Baseline.Glob.Match
import Baseline.Outside

/-!
# Scanning for baselines

A scan goes down from a root and picks the files whose names fit a pattern.

* Entries are taken in the order of the bytes of their names, at every level.
* An entry whose whole path fits an ignore pattern is left out with everything below it. The root
  itself is never left out.
* Links are neither picked nor followed. Only the root may be a link to a directory.
* What may not be read is noted and left out; any other failure ends the scan.
-/

namespace Baseline

/-- What a scan picks and what it leaves out. -/
structure ScanRules where
  /-- what the name of a picked file fits -/
  name : Glob.Pattern
  /-- what the path of an ignored entry fits -/
  ignored : List Glob.Pattern
deriving DecidableEq, Repr

namespace ScanRules

/-- Whether a file of this name is picked. -/
def picks (r : ScanRules) (name : Bytes) : Bool := r.name.fits (Utf8.lossy name)

/-- Whether the entry at a path is ignored. A path that is not text fits no pattern. -/
def ignores (r : ScanRules) (p : Path) : Bool :=
  match p.text? with
  | none => false
  | some text => r.ignored.any (·.fits text)

end ScanRules

namespace Scan

/-- The note about an ignore pattern that is none. -/
def badPattern (glob : String) (e : Glob.PatternError) : Note :=
  ⟨.error, .scan, "Invalid glob pattern '" ++ glob ++ "': " ++ e.message⟩

/-- The note about a path that may not be read. -/
def accessDenied (p : Path) (e : IoError) : Note :=
  ⟨.error, .scan, "Access denied reading " ++ p.display ++ ": " ++ walkFailure p e⟩

/-- Puts an entry in front of the first one whose name is not less than its own. -/
def putInOrder (entry : Entry) : List Entry → List Entry
  | [] => [entry]
  | other :: others =>
    if other.name < entry.name then other :: putInOrder entry others else entry :: other :: others

/-- Entries in the order of the bytes of their names. -/
def inOrder (entries : List Entry) : List Entry := entries.foldr putInOrder []

theorem putInOrder_perm (entry : Entry) (entries : List Entry) :
    (putInOrder entry entries).Perm (entry :: entries) := by
  induction entries with
  | nil => exact List.Perm.refl _
  | cons other others ih =>
    rw [putInOrder]
    split
    · exact (ih.cons other).trans (List.Perm.swap entry other others)
    · exact List.Perm.refl _

/-- Putting entries in order neither adds nor loses one. -/
theorem inOrder_perm (entries : List Entry) : (inOrder entries).Perm entries := by
  induction entries with
  | nil => exact List.Perm.refl _
  | cons entry entries ih => exact (putInOrder_perm entry _).trans (ih.cons entry)

/-- An entry with a name of its own is put where it belongs. -/
theorem pairwise_putInOrder {entry : Entry} {entries : List Entry}
    (hnew : entry.name ∉ entries.map Entry.name)
    (h : entries.Pairwise fun a b => a.name < b.name) :
    (putInOrder entry entries).Pairwise fun a b => a.name < b.name := by
  induction entries with
  | nil => exact List.pairwise_singleton _ _
  | cons other others ih =>
    obtain ⟨hother, hothers⟩ := List.pairwise_cons.1 h
    have hne : entry.name ≠ other.name := List.ne_of_not_mem_cons hnew
    rw [putInOrder]
    split
    · next hlt =>
      refine List.pairwise_cons.2
        ⟨fun third hthird => ?_, ih (List.not_mem_of_not_mem_cons hnew) hothers⟩
      rcases List.mem_cons.1 ((putInOrder_perm entry others).mem_iff.1 hthird) with rfl | hthird
      · exact hlt
      · exact hother third hthird
    · next hnot =>
      have hlt : entry.name < other.name :=
        (List.le_iff_lt_or_eq.1 (List.not_lt.1 hnot)).resolve_right hne
      refine List.pairwise_cons.2 ⟨fun third hthird => ?_, h⟩
      rcases List.mem_cons.1 hthird with rfl | hthird
      · exact hlt
      · exact List.lt_trans hlt (hother third hthird)

/-- Entries with different names come out strictly in order. -/
theorem pairwise_inOrder {entries : List Entry} (h : (entries.map Entry.name).Nodup) :
    (inOrder entries).Pairwise fun a b => a.name < b.name := by
  induction entries with
  | nil => exact List.Pairwise.nil
  | cons entry entries ih =>
    obtain ⟨hnew, hnodup⟩ := List.nodup_cons.1 h
    refine pairwise_putInOrder (fun hmem => hnew ?_) (ih hnodup)
    exact ((inOrder_perm entries).map Entry.name).mem_iff.1 hmem

section

variable {m : Type → Type} [Monad m]

/-- The ignore patterns among some texts. The others are noted and dropped. -/
def ignorePatterns (note : Note → m Unit) : List String → m (List Glob.Pattern)
  | [] => return []
  | glob :: globs => do
    match Glob.Pattern.parse glob with
    | .ok pattern =>
      let rest ← ignorePatterns note globs
      return pattern :: rest
    | .error e =>
      note (badPattern glob e)
      ignorePatterns note globs

/-- Goes on with what could be read. What may not be read is noted and holds nothing. -/
def whenRead {α : Type} (note : Note → m Unit) (p : Path) (reading : ExceptT IoError m α)
    (go : α → ExceptT Error m (List Path)) : ExceptT Error m (List Path) := do
  match ← ExceptT.lift reading.run with
  | .ok a => go a
  | .error e =>
    if e.isAccessDenied then
      ExceptT.lift (note (accessDenied p e))
      return []
    else throw (.walk p e)

/-- The files picked among the entries of a directory, and by `descend` below them. -/
def pickAmong (r : ScanRules) (descend : Path → ExceptT Error m (List Path)) (folder : Path) :
    List Entry → ExceptT Error m (List Path)
  | [] => return []
  | entry :: entries => do
    let p := folder.entry entry.name
    let first ←
      if r.ignores p then pure []
      else
        match entry.kind with
        | .directory => descend p
        | .file => pure (if r.picks entry.name then [p] else [])
        | .link => pure []
    let rest ← pickAmong r descend folder entries
    return first ++ rest

/-- The files picked below a directory, at most so many levels down. -/
def below (v : View m) (note : Note → m Unit) (r : ScanRules) :
    Nat → Path → ExceptT Error m (List Path)
  | 0, folder => throw (.walk folder (.os .nameTooLong))
  | levels + 1, folder =>
    whenRead note folder (v.entries folder) fun entries =>
      pickAmong r (below v note r levels) folder (inOrder entries)

/-- Every level makes a path longer, so this many levels are more than the disk takes. -/
def depthLimit : Nat := Disk.pathLimit

/-- The files that the rules pick from a root on. -/
def picked (v : View m) (note : Note → m Unit) (r : ScanRules) (root : Path) :
    ExceptT Error m (List Path) :=
  whenRead note root (v.kind root) fun
    | .file => pure (if r.picks root.lastName then [root] else [])
    | .directory => below v note r depthLimit root
    | .link =>
      whenRead note root (v.targetKind root) fun
        | .directory => below v note r depthLimit root
        | _ => pure []

/-- The files from a root on whose names fit a pattern, less those that ignore patterns leave
out. -/
def run (v : View m) (note : Note → m Unit) (root : Path) (name : String) (ignored : List String) :
    ExceptT Error m (List Path) := do
  match Glob.Pattern.parse name with
  | .error e => throw (.pattern e)
  | .ok pattern =>
    let patterns ← ExceptT.lift (ignorePatterns note ignored)
    picked v note ⟨pattern, patterns⟩ root

end

end Scan

end Baseline
