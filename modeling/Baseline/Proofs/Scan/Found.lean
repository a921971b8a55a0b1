import Baseline.Proofs.Disk.Still
import Baseline.Proofs.Disk.Unlink
import Baseline.Scan

/-!
# What a scan finds

Whatever a scan finds on a tree is a regular file below its root: the path is the root with some
names behind it, and the file is at the place of the root with the same names behind it (`Picks`).
The names are different for each find, so no file is found twice (`finds_of_run`).

A scan that succeeds also misses nothing: it finds what it is to find (`Due`), in the order of the
names (`findsDue_of_picked`). What is due is what is picked behind directories that can be opened.

The walk goes down one directory at a time and asks the disk for each by its whole path, so the
place it has reached is carried along: from a directory to its entries by `fileAt_entry`,
`locate_entry` and `picks_cons_iff`, through the entries by `finds_among`, and through the levels by
`finds_below`.
-/

namespace Baseline.Scan

variable {d : Disk} {r : ScanRules} {root p : Path} {base place : Place} {name : Bytes}
  {found : List Path}

/-- Notes that go nowhere. -/
def silent : Note → Id Unit := fun _ => pure ()

/-- The scan picks the file that the names lead to from its root. -/
structure Picks (d : Disk) (r : ScanRules) (root : Path) (base : Place) (names : List Bytes) :
    Prop where
  /-- it is a regular file, at the same names behind the place of the root -/
  file : d.FileAt (root.along names) (base ++ names)
  /-- its name fits the pattern -/
  fits : r.picks (root.along names).lastName = true
  /-- no ignore pattern leaves it out, nor a directory on the way -/
  spared : ∀ front, front ≠ [] → front <+: names → r.ignores (root.along front) = false
  /-- below the root, the root leads to its place -/
  located : names ≠ [] → d.locate true root = .ok base

/-- What is found are the files that some names lead to, each once. -/
def Finds (d : Disk) (r : ScanRules) (root : Path) (base : Place) (found : List Path) : Prop :=
  ∃ tails : List (List Bytes), found = tails.map root.along ∧ tails.Nodup ∧
    ∀ names ∈ tails, Picks d r root base names

/-- A directory can be opened at a path: the disk lists what is in it. -/
def Opens (d : Disk) (p : Path) : Prop := ∃ entries, (d.still.entries p).run = .ok entries

/-- Every path on the way along some names, the root included, can be opened. -/
def Opened (d : Disk) (root : Path) (names : List Bytes) : Prop :=
  ∀ front, front <+: names → front ≠ names → Opens d (root.along front)

/-- What is found below a directory are the files that are picked behind directories that can be
opened, in the order of their names. -/
def FindsBelow (d : Disk) (r : ScanRules) (root : Path) (base : Place) (found : List Path) : Prop :=
  ∃ tails : List (List Bytes), found = tails.map root.along ∧ tails.Pairwise (· < ·) ∧
    ∀ names, names ∈ tails ↔ names ≠ [] ∧ Picks d r root base names ∧ Opened d root names

/-- A scan from a root is to find the file to which the names lead. -/
structure Due (d : Disk) (r : ScanRules) (root : Path) (names : List Bytes) : Prop where
  /-- the rules pick it, and all that it is in, up to the root, are real directories -/
  picked : ∃ base, Picks d r root base names ∧
    ∀ front, front <+: names → front ≠ names → d.IsDirectory (base ++ front)
  /-- each of these can be opened -/
  opened : Opened d root names
  /-- the root itself counts where the disk says that it is a regular file -/
  seen : names = [] → (d.still.kind root).run = .ok .file

/-- What is found from a root is what is due, in the order of the names. -/
def FindsDue (d : Disk) (r : ScanRules) (root : Path) (found : List Path) : Prop :=
  ∃ base, ∃ tails : List (List Bytes), found = tails.map root.along ∧ tails.Pairwise (· < ·) ∧
    (∀ names ∈ tails, Picks d r root base names) ∧ ∀ names, names ∈ tails ↔ Due d r root names

/-! ## From a directory to its entries -/

/-- The route along a path that leads to a directory. -/
theorem route_of_locate {through : Bool} (h : d.locate through p = .ok base)
    (hbase : d.IsDirectory base) :
    ∃ k ≤ Disk.linkLimit, Disk.Route d k (d.origin p) p.names base := by
  obtain ⟨⟨⟩, -, hresolve⟩ := bind_eq_ok_iff.1 h
  obtain ⟨rights, hnode⟩ := Disk.isDirectory_iff.1 hbase
  refine Disk.route_of_resolve hresolve (.inr fun hfile => hfile.not_isDirectory hbase)
    (.inr fun target hlink => ?_)
  cases hnode.symm.trans hlink

/-- A path that is a directory leads to it. -/
theorem locate_of_isDirectory {through : Bool} (h : d.locate through p = .ok base)
    (hbase : d.IsDirectory base) : d.locate true p = .ok base := by
  obtain ⟨⟨⟩, haccepts, -⟩ := bind_eq_ok_iff.1 h
  obtain ⟨k, hk, hroute⟩ := route_of_locate h hbase
  exact bind_eq_ok_iff.2 ⟨⟨⟩, haccepts, hroute.resolve_eq hk _⟩

theorem bytes_ne_nil_of_locate (h : d.locate true p = .ok base) : p.bytes ≠ [] := by
  intro hnil
  obtain ⟨⟨⟩, haccepts, -⟩ := bind_eq_ok_iff.1 h
  rw [Disk.accepts, hnil] at haccepts
  cases haccepts

theorem origin_entry (hp : p.bytes ≠ []) (name : Bytes) : d.origin (p.entry name) = d.origin p := by
  rw [Disk.origin, Disk.origin, Path.isAbsolute_entry hp]

/-- A name that can stand in a directory adds exactly one name to the path. Whatever comes with a
slash in it would add more. -/
theorem names_entry_of_isName (p : Path) (hname : Path.IsName name) :
    (p.entry name).names = p.names ++ [name] := by
  rw [Path.names_entry, Path.names_of_isPiece hname.toIsPiece]

/-- A file in a directory is at the path of its entry. -/
theorem fileAt_entry (htree : d.Tree) (hlocate : d.locate true p = .ok base)
    (hbase : d.IsDirectory base) (hfile : d.IsFile (base ++ [name])) :
    d.FileAt (p.entry name) (base ++ [name]) := by
  obtain ⟨node, hnode⟩ := Option.ne_none_iff_exists'.1 hfile.get?_ne_none
  have hname := (htree.inside_of_get? hnode).1
  refine ⟨base, name, ⟨?_, ?_⟩, rfl, hfile⟩
  · rw [names_entry_of_isName p hname, List.getLast?_concat]
  · rw [names_entry_of_isName p hname, List.dropLast_concat,
      origin_entry (bytes_ne_nil_of_locate hlocate)]
    exact Disk.resolve_strict_iff.2 (route_of_locate hlocate hbase)

/-- A directory in a directory is where the path of its entry leads, if it leads anywhere. -/
theorem locate_entry (htree : d.Tree) (hlocate : d.locate true p = .ok base)
    (hbase : d.IsDirectory base) (hsub : d.IsDirectory (base ++ [name]))
    (h : d.locate true (p.entry name) = .ok place) : place = base ++ [name] := by
  obtain ⟨rights, hnode⟩ := Disk.isDirectory_iff.1 hsub
  have hname := (htree.inside_of_get? hnode).1
  obtain ⟨k, hk, hroute⟩ := route_of_locate hlocate hbase
  obtain ⟨⟨⟩, -, hresolve⟩ := bind_eq_ok_iff.1 h
  -- the path of the entry takes the route to the directory, and one name more
  rw [names_entry_of_isName p hname, origin_entry (bytes_ne_nil_of_locate hlocate),
    hroute.resolve_append hk (List.cons_ne_nil _ _), Disk.resolve_eq_follow] at hresolve
  obtain ⟨-, hfollowed⟩ := Disk.of_follow_cons hresolve
  cases hfollowed with
  | stay => exact absurd rfl hname.ne_here
  | up => exact absurd rfl hname.ne_above
  | down _ _ rest => exact (Except.ok.inj rest).symm
  | file _ _ _ _ hend => exact hend
  | kept _ _ _ _ hkept => cases hkept
  | link _ hlink => cases Option.some.inj (hnode.symm.trans hlink)

/-- The entries that are read are those of the directory to which the path leads. -/
theorem of_entries {entries : List Entry} (h : (d.still.entries p).run = .ok entries) :
    ∃ base, d.locate true p = .ok base ∧ d.IsDirectory base ∧ entries = d.entriesAt base := by
  have hread : d.readDirectory p = .ok entries := (Disk.request_eq_ok_iff.1 h).2
  obtain ⟨base, hlocate, hread⟩ := bind_eq_ok_iff.1 hread
  refine ⟨base, hlocate, ?_⟩
  split at hread
  · next rights hnode =>
    split at hread
    · exact ⟨Disk.isDirectory_iff.2 ⟨rights, hnode⟩, (Except.ok.inj hread).symm⟩
    · cases hread
  · cases hread
  · cases hread

theorem isDirectory_of_opens (hlocate : d.locate true p = .ok base) (h : Opens d p) :
    d.IsDirectory base := by
  obtain ⟨entries, hentries⟩ := h
  obtain ⟨place, hplace, hdirectory, -⟩ := of_entries hentries
  obtain rfl : place = base := Except.ok.inj (hplace.symm.trans hlocate)
  exact hdirectory

/-! ## Through the entries of a directory -/

/-- What is found below an entry is found below its directory, one name longer. -/
theorem Picks.of_entry {names : List Bytes} (hlocate : d.locate true p = .ok base)
    (hspared : r.ignores (p.entry name) = false)
    (h : Picks d r (p.entry name) (base ++ [name]) names) : Picks d r p base (name :: names) where
  file := by
    have hfile := h.file
    rwa [List.append_assoc, List.singleton_append] at hfile
  fits := h.fits
  spared front hne hfront := by
    cases front with
    | nil => exact absurd rfl hne
    | cons first front =>
      obtain ⟨rfl, hbelow⟩ := List.cons_prefix_cons.1 hfront
      by_cases hnil : front = []
      · rw [hnil]
        exact hspared
      · exact h.spared front hnil hbelow
  located _ := hlocate

/-- What is due below a directory that can be opened is what is due below its entries, less those
that an ignore pattern leaves out. -/
theorem picks_cons_iff (htree : d.Tree) (hlocate : d.locate true p = .ok base) (hopens : Opens d p)
    {names : List Bytes} :
    Picks d r p base (name :: names) ∧ Opened d p (name :: names) ↔
      r.ignores (p.entry name) = false ∧
        Picks d r (p.entry name) (base ++ [name]) names ∧ Opened d (p.entry name) names := by
  constructor
  · rintro ⟨hpicks, hopened⟩
    have hfile := hpicks.file
    rw [← List.singleton_append, ← List.append_assoc] at hfile
    refine ⟨hpicks.spared [name] (List.cons_ne_nil _ _) ⟨names, rfl⟩, ⟨hfile, hpicks.fits, ?_, ?_⟩,
      ?_⟩
    · exact fun front _ hfront =>
        hpicks.spared (name :: front) (List.cons_ne_nil _ _) (List.cons_prefix_cons.2 ⟨rfl, hfront⟩)
    · -- the directory is located by its path, because it can be opened there
      intro hne
      have hsub := htree.isDirectory_of_append hne hfile.isFile.get?_ne_none
      obtain ⟨entries, hentries⟩ := hopened [name] ⟨names, rfl⟩ fun heq =>
        hne (List.cons.inj heq).2.symm
      obtain ⟨place, hplace, -, -⟩ := of_entries hentries
      rw [Path.along_cons, Path.along_nil] at hplace
      rw [hplace, locate_entry htree hlocate (isDirectory_of_opens hlocate hopens) hsub hplace]
    · exact fun front hfront hne => hopened (name :: front) (List.cons_prefix_cons.2 ⟨rfl, hfront⟩)
        fun heq => hne (List.cons.inj heq).2
  · rintro ⟨hspared, hpicks, hopened⟩
    refine ⟨hpicks.of_entry hlocate hspared, fun front hfront hne => ?_⟩
    cases front with
    | nil => exact hopens
    | cons first front =>
      obtain ⟨rfl, hbelow⟩ := List.cons_prefix_cons.1 hfront
      exact hopened front hbelow fun heq => hne (heq ▸ rfl)

/-- What is picked at one entry of a directory, and below it. -/
def pickAt {m : Type → Type} [Monad m] (r : ScanRules)
    (descend : Path → ExceptT Error m (List Path)) (folder : Path) (entry : Entry) :
    ExceptT Error m (List Path) :=
  let p := folder.entry entry.name
  if r.ignores p then pure []
  else
    match entry.kind with
    | .directory => descend p
    | .file => pure (if r.picks entry.name then [p] else [])
    | .link => pure []

/-- A directory is scanned entry by entry, and what is found below the first comes before what is
found below the others. -/
theorem pickAmong_cons {m : Type → Type} [Monad m] (r : ScanRules)
    (descend : Path → ExceptT Error m (List Path)) (folder : Path) (entry : Entry)
    (entries : List Entry) :
    pickAmong r descend folder (entry :: entries) = (do
      let first ← pickAt r descend folder entry
      let rest ← pickAmong r descend folder entries
      return first ++ rest) := by
  obtain ⟨name, kind⟩ := entry
  rw [pickAmong, pickAt]
  cases kind <;> dsimp only <;> split <;> rfl

/-- What the scan finds at one entry, and below it, if it finds below a directory what it is to
find. -/
theorem finds_at_entry (htree : d.Tree) (hlocate : d.locate true p = .ok base)
    (hopens : Opens d p) {descend : Path → ExceptT Error Id (List Path)}
    (hdescend : ∀ name found, d.IsDirectory (base ++ [name]) →
      (descend (p.entry name)).run = .ok found →
        FindsBelow d r (p.entry name) (base ++ [name]) found)
    {entry : Entry} (hentry : entry ∈ d.entriesAt base)
    (h : (pickAt r descend p entry).run = .ok found) :
    ∃ tails : List (List Bytes), found = (tails.map (entry.name :: ·)).map p.along ∧
      tails.Pairwise (· < ·) ∧ ∀ names, names ∈ tails ↔
        Picks d r p base (entry.name :: names) ∧ Opened d p (entry.name :: names) := by
  obtain ⟨node, hnode, hkind⟩ := htree.mem_entriesAt.1 hentry
  have hbase := isDirectory_of_opens hlocate hopens
  have hkind? : d.kind? (base ++ [entry.name]) = some entry.kind := by
    rw [Disk.kind?, hnode, ← hkind]
    rfl
  have hcons := @picks_cons_iff d r p base entry.name
  -- an entry at which nothing is found is one at which nothing is to be found
  have hnothing (hnil : [] = found) (hnone : ∀ names,
      r.ignores (p.entry entry.name) = false →
        ¬ Picks d r (p.entry entry.name) (base ++ [entry.name]) names) :
      ∃ tails : List (List Bytes), found = (tails.map (entry.name :: ·)).map p.along ∧
        tails.Pairwise (· < ·) ∧ ∀ names, names ∈ tails ↔
          Picks d r p base (entry.name :: names) ∧ Opened d p (entry.name :: names) := by
    refine ⟨[], hnil.symm, List.Pairwise.nil, fun names => ?_⟩
    rw [hcons htree hlocate hopens]
    exact ⟨fun hmem => absurd hmem List.not_mem_nil,
      fun hdue => absurd hdue.2.1 (hnone names hdue.1)⟩
  rw [pickAt] at h
  split at h
  · next hignored =>
    exact hnothing (Except.ok.inj h) fun _ hspared => Bool.noConfusion (hignored.symm.trans hspared)
  · next hignored =>
    have hspared := Bool.eq_false_iff.2 hignored
    split at h
    · next hdirectory =>
      rw [hdirectory] at hkind?
      obtain ⟨tails, rfl, hsorted, hmem⟩ := hdescend _ _ hkind? h
      refine ⟨tails, by rw [List.map_map]; rfl, hsorted, fun names => ?_⟩
      rw [hmem, hcons htree hlocate hopens]
      refine ⟨fun hdue => ⟨hspared, hdue.2⟩, fun hdue => ⟨?_, hdue.2⟩⟩
      -- the directory itself is no file
      rintro rfl
      have hfile := hdue.2.1.file.isFile
      rw [List.append_nil] at hfile
      exact hfile.not_isDirectory hkind?
    · next hfile =>
      rw [hfile] at hkind?
      have hname := (htree.inside_of_get? hnode).1
      have hlast : (p.entry entry.name).lastName = entry.name := by
        rw [Path.lastName, names_entry_of_isName p hname, List.getLast?_concat, Option.getD_some]
      have hnil (names : List Bytes)
          (hpicks : Picks d r (p.entry entry.name) (base ++ [entry.name]) names) : names = [] := by
        by_contra hne
        exact Disk.IsFile.not_isDirectory hkind?
          (htree.isDirectory_of_append hne hpicks.file.isFile.get?_ne_none)
      split at h
      · next hfits =>
        obtain rfl : [p.entry entry.name] = found := Except.ok.inj h
        refine ⟨[[]], rfl, List.pairwise_singleton _ _, fun names => ?_⟩
        rw [List.mem_singleton, hcons htree hlocate hopens]
        refine ⟨?_, fun hdue => hnil names hdue.2.1⟩
        rintro rfl
        refine ⟨hspared, ⟨?_, ?_, ?_, fun hne => absurd rfl hne⟩, ?_⟩
        · rw [List.append_nil]
          exact fileAt_entry htree hlocate hbase hkind?
        · rw [Path.along_nil, hlast]
          exact hfits
        · exact fun front hne hfront => absurd (List.prefix_nil.1 hfront) hne
        · exact fun front hfront hne => absurd (List.prefix_nil.1 hfront) hne
      · next hfits =>
        refine hnothing (Except.ok.inj h) fun names _ hpicks => hfits ?_
        obtain rfl := hnil names hpicks
        rw [← hlast]
        exact hpicks.fits
    · next hlink =>
      rw [hlink] at hkind?
      refine hnothing (Except.ok.inj h) fun names _ hpicks => ?_
      by_cases hnil : names = []
      · have hfile := hpicks.file.isFile
        rw [hnil, List.append_nil] at hfile
        cases hkind?.symm.trans hfile
      · have hdirectory := htree.isDirectory_of_append hnil hpicks.file.isFile.get?_ne_none
        cases hkind?.symm.trans hdirectory

/-- What the scan finds among some entries of a directory: what it is to find through one of
them. -/
theorem finds_among (htree : d.Tree) (hlocate : d.locate true p = .ok base)
    (hopens : Opens d p) {descend : Path → ExceptT Error Id (List Path)}
    (hdescend : ∀ name found, d.IsDirectory (base ++ [name]) →
      (descend (p.entry name)).run = .ok found →
        FindsBelow d r (p.entry name) (base ++ [name]) found)
    {entries : List Entry} (hentries : ∀ entry ∈ entries, entry ∈ d.entriesAt base)
    (hsorted : entries.Pairwise fun a b => a.name < b.name)
    (h : (pickAmong r descend p entries).run = .ok found) :
    ∃ tails : List (List Bytes), found = tails.map p.along ∧ tails.Pairwise (· < ·) ∧
      ∀ names, names ∈ tails ↔ (∃ entry ∈ entries, names.head? = some entry.name) ∧
        Picks d r p base names ∧ Opened d p names := by
  induction entries generalizing found with
  | nil =>
    obtain rfl : [] = found := Except.ok.inj h
    exact ⟨[], rfl, List.Pairwise.nil, by simp⟩
  | cons entry entries ih =>
    rw [pickAmong_cons] at h
    obtain ⟨first, hfirst, h⟩ := run_bind_eq_ok_iff.1 h
    obtain ⟨rest, hrest, h⟩ := run_bind_eq_ok_iff.1 h
    obtain rfl : first ++ rest = found := Except.ok.inj h
    obtain ⟨hless, hsorted⟩ := List.pairwise_cons.1 hsorted
    obtain ⟨tails, rfl, htails, hmem⟩ :=
      finds_at_entry htree hlocate hopens hdescend (hentries _ List.mem_cons_self) hfirst
    obtain ⟨more, rfl, hmore, hmem'⟩ :=
      ih (fun other hother => hentries other (List.mem_cons_of_mem _ hother)) hsorted hrest
    refine ⟨tails.map (entry.name :: ·) ++ more, List.map_append.symm, ?_, fun names => ?_⟩
    · refine List.pairwise_append.2 ⟨?_, hmore, ?_⟩
      · exact List.pairwise_map.2 (htails.imp fun hlt => List.cons_lt_cons_iff.2 (.inr ⟨rfl, hlt⟩))
      · -- finds at different entries differ in their first names, and these are in order
        intro names hnames other hother
        obtain ⟨names, -, rfl⟩ := List.mem_map.1 hnames
        obtain ⟨⟨second, hsecond, hhead⟩, -⟩ := (hmem' other).1 hother
        obtain ⟨other, rfl⟩ := List.head?_eq_some_iff.1 hhead
        exact List.cons_lt_cons_iff.2 (.inl (hless second hsecond))
    · rw [List.mem_append, List.mem_map, hmem']
      constructor
      · rintro (⟨names, hnames, rfl⟩ | ⟨⟨second, hsecond, hhead⟩, hdue⟩)
        · exact ⟨⟨entry, List.mem_cons_self, rfl⟩, (hmem names).1 hnames⟩
        · exact ⟨⟨second, List.mem_cons_of_mem _ hsecond, hhead⟩, hdue⟩
      · rintro ⟨⟨other, hother, hhead⟩, hdue⟩
        rcases List.mem_cons.1 hother with rfl | hother
        · obtain ⟨names, rfl⟩ := List.head?_eq_some_iff.1 hhead
          exact .inl ⟨names, (hmem names).2 hdue, rfl⟩
        · exact .inr ⟨⟨other, hother, hhead⟩, hdue⟩

/-! ## Through the levels -/

theorem whenRead_ok {α : Type} {reading : ExceptT IoError Id α} {a : α}
    (h : reading.run = .ok a) (p : Path) (go : α → ExceptT Error Id (List Path)) :
    whenRead silent p reading go = go a := by
  have hrun : whenRead silent p reading go =
      (match reading.run with
        | .ok a => go a
        | .error e => if e.isAccessDenied then pure [] else throw (.walk p e)) := rfl
  rw [hrun, h]

/-- A reading that is denied costs what is below and nothing else; every other failure ends the scan
with the path at which it came. -/
theorem whenRead_error {α : Type} {reading : ExceptT IoError Id α} {e : IoError}
    (h : reading.run = .error e) (p : Path) (go : α → ExceptT Error Id (List Path)) :
    whenRead silent p reading go = if e.isAccessDenied then pure [] else throw (.walk p e) := by
  have hrun : whenRead silent p reading go =
      (match reading.run with
        | .ok a => go a
        | .error e => if e.isAccessDenied then pure [] else throw (.walk p e)) := rfl
  rw [hrun, h]

/-- A reading succeeds and goes on, or it is denied and holds nothing. -/
theorem whenRead_eq_ok_iff {α : Type} {reading : ExceptT IoError Id α}
    {go : α → ExceptT Error Id (List Path)} :
    (whenRead silent p reading go).run = .ok found ↔
      (found = [] ∧ ∃ e, reading.run = .error e ∧ e.isAccessDenied = true) ∨
        ∃ a, reading.run = .ok a ∧ (go a).run = .ok found := by
  cases hread : reading.run with
  | ok a =>
    rw [whenRead_ok hread]
    refine ⟨fun h => .inr ⟨a, rfl, h⟩, ?_⟩
    rintro (⟨-, e, herr, -⟩ | ⟨a', ha, h⟩)
    · cases herr
    · rwa [Except.ok.inj ha]
  | error e =>
    rw [whenRead_error hread]
    constructor
    · intro h
      split at h
      · next hdenied => exact .inl ⟨(Except.ok.inj h).symm, e, rfl, hdenied⟩
      · cases h
    · rintro (⟨rfl, e', herr, hdenied⟩ | ⟨a, ha, -⟩)
      · rw [if_pos (Except.error.inj herr ▸ hdenied)]
        rfl
      · cases ha

/-- Below a directory that is at a place, if the disk finds it at all. -/
theorem finds_below (htree : d.Tree) {levels : Nat}
    (hbase : ∀ place, d.locate true p = .ok place → place = base)
    (h : (below d.still silent r levels p).run = .ok found) : FindsBelow d r p base found := by
  induction levels generalizing p base found with
  | zero => cases h
  | succ levels ih =>
    rcases whenRead_eq_ok_iff.1 h with ⟨rfl, e, hdenied, -⟩ | ⟨entries, hentries, h⟩
    · refine ⟨[], rfl, List.Pairwise.nil, fun names => ?_⟩
      refine ⟨fun hmem => absurd hmem List.not_mem_nil, fun ⟨hne, _, hopened⟩ => ?_⟩
      obtain ⟨entries, hentries⟩ := hopened [] List.nil_prefix (Ne.symm hne)
      exact nomatch hdenied.symm.trans hentries
    · obtain ⟨place, hlocate, hdirectory, rfl⟩ := of_entries hentries
      obtain rfl := hbase place hlocate
      have hperm := inOrder_perm (d.entriesAt place)
      obtain ⟨tails, hfound, hsorted, hmem⟩ :=
        finds_among htree hlocate ⟨_, hentries⟩
          (fun name found hsub hbelow =>
            ih (fun _ => locate_entry htree hlocate hdirectory hsub) hbelow)
          (fun entry hentry => hperm.mem_iff.1 hentry)
          (pairwise_inOrder (htree.nodup_entriesAt place)) h
      refine ⟨tails, hfound, hsorted, fun names => ?_⟩
      rw [hmem]
      refine and_congr_left fun hdue => ⟨?_, fun hne => ?_⟩
      · rintro ⟨entry, -, hhead⟩ rfl
        cases hhead
      · obtain ⟨name, names, rfl⟩ := List.exists_cons_of_ne_nil hne
        -- a file is among the entries, and a directory on the way to one too
        have hpresent : d.get? (place ++ [name]) ≠ none := by
          have hfile := hdue.1.file.isFile.get?_ne_none
          rw [← List.singleton_append, ← List.append_assoc] at hfile
          by_cases hnil : names = []
          · rwa [hnil, List.append_nil] at hfile
          · obtain ⟨rights, hnode⟩ :=
              Disk.isDirectory_iff.1 (htree.isDirectory_of_append hnil hfile)
            simp [hnode]
        obtain ⟨node, hnode⟩ := Option.ne_none_iff_exists'.1 hpresent
        exact ⟨⟨name, node.kind⟩, hperm.mem_iff.2 (htree.mem_entriesAt.2 ⟨node, hnode, rfl⟩), rfl⟩

/-! ## The root -/

/-- A root that is a regular file is at its own path. -/
theorem fileAt_of_kind (htree : d.Tree) (h : (d.still.kind root).run = .ok .file) :
    ∃ place, d.FileAt root place := by
  have hkind : (d.nodeAt false root).map Node.kind = .ok .file := (Disk.request_eq_ok_iff.1 h).2
  obtain ⟨node, hnode, hkind⟩ : ∃ node, d.nodeAt false root = .ok node ∧ node.kind = .file := by
    cases hnode : d.nodeAt false root with
    | error e =>
      rw [hnode] at hkind
      cases hkind
    | ok node =>
      rw [hnode] at hkind
      exact ⟨node, rfl, Except.ok.inj hkind⟩
  obtain ⟨place, hlocate, hnode⟩ := bind_eq_ok_iff.1 hnode
  obtain ⟨⟨⟩, -, hresolve⟩ := bind_eq_ok_iff.1 hlocate
  have hfile : d.IsFile place := by
    cases hget : d.get? place with
    | none =>
      rw [hget] at hnode
      cases hnode
    | some other =>
      rw [hget] at hnode
      obtain rfl : other = node := Except.ok.inj hnode
      rw [Disk.IsFile, Disk.kind?, hget, ← hkind]
      rfl
  have hstart : d.IsDirectory (d.origin root) := by
    rw [Disk.origin]
    split
    · exact htree.top
    · exact htree.cwd
  cases hstrict : root.endsInSlash with
  | true =>
    -- where a directory is demanded there is no file
    rw [hstrict, Disk.resolve_strict] at hresolve
    obtain ⟨k, -, hroute⟩ := Disk.resolve_strict_iff.1 hresolve
    exact absurd (hroute.isDirectory htree hstart) hfile.not_isDirectory
  | false =>
    rw [hstrict] at hresolve
    obtain ⟨front, last, k, folder, hnames, hk, hroute, rfl⟩ :=
      Disk.leadsTo_of_resolve htree hresolve hfile hstart
    refine ⟨_, folder, last, ⟨?_, ?_⟩, rfl, hfile⟩
    · rw [hnames, List.getLast?_concat]
    · rw [hnames, List.dropLast_concat]
      exact Disk.resolve_strict_iff.2 ⟨k, hk, hroute⟩

/-- A root that leads to a directory is one, or a link to one. -/
theorem kind_of_locate (hzero : 0 ∉ root.bytes) (hlocate : d.locate true root = .ok base)
    (hbase : d.IsDirectory base) :
    (d.still.kind root).run = .ok .directory ∨
      (d.still.kind root).run = .ok .link ∧ (d.still.targetKind root).run = .ok .directory := by
  obtain ⟨rights, hnode⟩ := Disk.isDirectory_iff.1 hbase
  obtain ⟨⟨⟩, haccepts, hresolve⟩ := bind_eq_ok_iff.1 hlocate
  obtain ⟨kept, hkept, hend⟩ := Disk.resolve_kept hresolve
  have hlocate' : d.locate false root = .ok kept :=
    bind_eq_ok_iff.2 ⟨⟨⟩, haccepts, hkept⟩
  -- what the root is, and what it leads to, are the nodes at the two places
  have hkind (through : Bool) {place : Place} {node : Node}
      (hlocate : d.locate through root = .ok place) (hnode : d.get? place = some node) :
      Disk.request [root] ((d.nodeAt through root).map Node.kind) = .ok node.kind := by
    refine Disk.request_eq_ok_iff.2 ⟨hzero, ?_⟩
    rw [Disk.nodeAt, hlocate]
    simp only [bind, Except.bind, hnode]
    rfl
  rcases hend with rfl | ⟨target, hlink⟩
  · exact .inl (hkind false hlocate' hnode)
  · exact .inr ⟨hkind false hlocate' hlink, hkind true hlocate hnode⟩

theorem kind_of_opens (h : Opens d root) :
    (d.still.kind root).run = .ok .directory ∨
      (d.still.kind root).run = .ok .link ∧ (d.still.targetKind root).run = .ok .directory := by
  obtain ⟨entries, hentries⟩ := h
  obtain ⟨base, hlocate, hbase, -⟩ := of_entries hentries
  exact kind_of_locate (Disk.request_eq_ok_iff.1 hentries).1 hlocate hbase

/-- Below the root nothing is due unless the root can be opened. -/
theorem Due.opens {names : List Bytes} (h : Due d r root names) (hne : names ≠ []) :
    Opens d root :=
  h.opened [] List.nil_prefix (Ne.symm hne)

/-- What the walk picks is due: it is a file that fits, and nothing on the way to it was ignored or
closed. It is the soundness of the scan, told for one find. -/
theorem Picks.due {names : List Bytes} (h : Picks d r root base names) (htree : d.Tree)
    (hopened : Opened d root names)
    (hseen : names = [] → (d.still.kind root).run = .ok .file) : Due d r root names := by
  refine ⟨⟨base, h, fun front hfront hne => ?_⟩, hopened, hseen⟩
  obtain ⟨rest, rfl⟩ := hfront
  have hrest : rest ≠ [] := fun hnil => hne (by rw [hnil, List.append_nil])
  have hfile := h.file.isFile.get?_ne_none
  rw [← List.append_assoc] at hfile
  exact htree.isDirectory_of_append hrest hfile

/-- Where nothing is due, finding nothing is right. -/
theorem findsDue_nil (hnone : ∀ names, ¬ Due d r root names) : FindsDue d r root [] :=
  ⟨[], [], rfl, List.Pairwise.nil, fun _ h => absurd h List.not_mem_nil,
    fun names => ⟨fun h => absurd h List.not_mem_nil, fun h => absurd h (hnone names)⟩⟩

/-- From a root that is no file, what is due is what is found below it. -/
theorem findsDue_of_below (htree : d.Tree) (hkind : (d.still.kind root).run ≠ .ok .file)
    {levels : Nat} (h : (below d.still silent r levels root).run = .ok found) :
    FindsDue d r root found := by
  obtain ⟨base, hbase⟩ : ∃ base, ∀ place, d.locate true root = .ok place → place = base := by
    cases hlocate : d.locate true root with
    | ok base => exact ⟨base, fun place hplace => (Except.ok.inj hplace).symm⟩
    | error e => exact ⟨[], nofun⟩
  obtain ⟨tails, rfl, hsorted, hmem⟩ := finds_below htree hbase h
  refine ⟨base, tails, rfl, hsorted, fun names hnames => ((hmem names).1 hnames).2.1,
    fun names => (hmem names).trans ⟨?_, fun hdue => ?_⟩⟩
  · rintro ⟨hne, hpicks, hopened⟩
    exact hpicks.due htree hopened fun hnil => absurd hnil hne
  · have hne : names ≠ [] := fun hnil => hkind (hdue.seen hnil)
    obtain ⟨other, hpicks, -⟩ := hdue.picked
    obtain rfl := hbase other (hpicks.located hne)
    exact ⟨hne, hpicks, hdue.opened⟩

/-- From a root that is a file, the root is all that can be due. -/
theorem findsDue_of_file (htree : d.Tree) (hkind : (d.still.kind root).run = .ok .file) :
    FindsDue d r root (if r.picks root.lastName then [root] else []) := by
  obtain ⟨place, hfile⟩ := fileAt_of_kind htree hkind
  have hnil (names : List Bytes) (hdue : Due d r root names) : names = [] := by
    by_contra hne
    rcases kind_of_opens (hdue.opens hne) with hother | ⟨hother, -⟩
    · exact nomatch hkind.symm.trans hother
    · exact nomatch hkind.symm.trans hother
  split
  · next hfits =>
    have hpicks : Picks d r root place [] := by
      refine ⟨?_, hfits, fun front hne hfront => absurd (List.prefix_nil.1 hfront) hne,
        fun hne => absurd rfl hne⟩
      rw [List.append_nil]
      exact hfile
    refine ⟨place, [[]], rfl, List.pairwise_singleton _ _, fun names hnames => ?_, fun names => ?_⟩
    · rwa [List.mem_singleton.1 hnames]
    · rw [List.mem_singleton]
      refine ⟨?_, hnil names⟩
      rintro rfl
      exact hpicks.due htree
        (fun front hfront hne => absurd (List.prefix_nil.1 hfront) hne) fun _ => hkind
  · next hfits =>
    refine findsDue_nil fun names hdue => hfits ?_
    obtain ⟨base, hpicks, -⟩ := hdue.picked
    rw [hnil names hdue] at hpicks
    exact hpicks.fits

/-- What a scan finds from a root is what is due. -/
theorem findsDue_of_picked (htree : d.Tree) (h : (picked d.still silent r root).run = .ok found) :
    FindsDue d r root found := by
  -- a root that is neither a file nor opens has nothing due from it
  have hnothing (hfile : (d.still.kind root).run ≠ .ok .file)
      (hnot : (d.still.kind root).run ≠ .ok .directory)
      (htarget : (d.still.kind root).run = .ok .link →
        (d.still.targetKind root).run ≠ .ok .directory) : FindsDue d r root [] := by
    refine findsDue_nil fun names hdue => ?_
    have hne : names ≠ [] := fun hnil => hfile (hdue.seen hnil)
    rcases kind_of_opens (hdue.opens hne) with hkind | ⟨hkind, hleads⟩
    · exact hnot hkind
    · exact htarget hkind hleads
  rcases whenRead_eq_ok_iff.1 h with ⟨rfl, e, hdenied, -⟩ | ⟨kind, hkind, h⟩
  · rw [hdenied] at hnothing
    exact hnothing nofun nofun nofun
  · rw [hkind] at hnothing
    cases kind with
    | file =>
      rw [← Except.ok.inj h]
      exact findsDue_of_file htree hkind
    | directory => exact findsDue_of_below htree (fun heq => nomatch hkind.symm.trans heq) h
    | link =>
      rcases whenRead_eq_ok_iff.1 h with ⟨rfl, e, hdenied, -⟩ | ⟨target, htarget, h⟩
      · rw [hdenied] at hnothing
        exact hnothing nofun nofun fun _ => nofun
      · rw [htarget] at hnothing
        cases target with
        | directory => exact findsDue_of_below htree (fun heq => nomatch hkind.symm.trans heq) h
        | file =>
          rw [← Except.ok.inj h]
          exact hnothing nofun nofun fun _ => nofun
        | link =>
          rw [← Except.ok.inj h]
          exact hnothing nofun nofun fun _ => nofun

/-- The finds come in strict order, so none comes twice. -/
theorem nodup_of_sorted {tails : List (List Bytes)} (h : tails.Pairwise (· < ·)) : tails.Nodup := by
  refine List.Pairwise.imp ?_ h
  rintro names _ hlt rfl
  exact List.lt_irrefl names hlt

/-- What a scan finds from a root, it finds once. -/
theorem finds_of_picked (htree : d.Tree) (h : (picked d.still silent r root).run = .ok found) :
    ∃ base, Finds d r root base found := by
  obtain ⟨base, tails, hfound, hsorted, hpicks, -⟩ := findsDue_of_picked htree h
  exact ⟨base, tails, hfound, nodup_of_sorted hsorted, hpicks⟩

/-- The patterns among some texts. -/
def patterns (ignored : List String) : List Glob.Pattern :=
  ignored.filterMap fun glob => (Glob.Pattern.parse glob).toOption

theorem ignorePatterns_silent (ignored : List String) :
    ignorePatterns silent ignored = patterns ignored := by
  induction ignored with
  | nil => rfl
  | cons glob globs ih =>
    rw [ignorePatterns, patterns, List.filterMap_cons]
    cases Glob.Pattern.parse glob with
    | ok pattern => exact congrArg (pattern :: ·) ih
    | error e => exact ih

/-- A scan is the scan with the rules that its texts give. -/
theorem run_eq_picked {fitting : String} {pattern : Glob.Pattern}
    (hpattern : Glob.Pattern.parse fitting = .ok pattern) (ignored : List String) :
    run d.still silent root fitting ignored =
      picked d.still silent ⟨pattern, patterns ignored⟩ root := by
  rw [run, hpattern, ← ignorePatterns_silent]
  rfl

/-- **What a scan finds.** On a tree a scan finds regular files only, each of them once, below its
root and under a name that fits, and none that an ignore pattern leaves out. -/
theorem finds_of_run (htree : d.Tree) {fitting : String} {ignored : List String}
    (h : (run d.still silent root fitting ignored).run = .ok found) :
    ∃ pattern base, Glob.Pattern.parse fitting = .ok pattern ∧
      Finds d ⟨pattern, patterns ignored⟩ root base found := by
  cases hpattern : Glob.Pattern.parse fitting with
  | error e =>
    rw [run, hpattern] at h
    cases h
  | ok pattern =>
    rw [run_eq_picked hpattern] at h
    obtain ⟨base, hfinds⟩ := finds_of_picked htree h
    exact ⟨pattern, base, rfl, hfinds⟩

end Baseline.Scan
