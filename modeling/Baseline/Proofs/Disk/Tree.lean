import Baseline.Proofs.Path.Names
import Mathlib.Data.List.Induction
import Mathlib.Data.List.Nodup

/-!
# Disks that are trees

The flat map of a disk can hold what no disk holds: two nodes at one place, a file below a file, a
name with a slash. `Tree` leaves all that out, so on a tree every node but the top is an entry of a
directory, under a name that path text can spell, and the entries of a directory are its nodes
(`Tree.mem_entriesAt`).

`without` takes nodes away. A tree stays one as long as only files go (`Tree.without`).
-/

namespace Baseline.Disk

variable {d : Disk} {place folder : Place} {places : List Place} {name : Bytes} {node : Node}

/-! ## Kinds -/

/-- The kind of what is at a place. -/
def kind? (d : Disk) (place : Place) : Option Node.Kind := (d.get? place).map Node.kind

/-- Whether a place holds a file. -/
def IsFile (d : Disk) (place : Place) : Prop := d.kind? place = some .file

/-- Whether a place holds a directory. -/
def IsDirectory (d : Disk) (place : Place) : Prop := d.kind? place = some .directory

instance (d : Disk) (place : Place) : Decidable (d.IsFile place) :=
  inferInstanceAs (Decidable (_ = _))

instance (d : Disk) (place : Place) : Decidable (d.IsDirectory place) :=
  inferInstanceAs (Decidable (_ = _))

theorem isFile_iff :
    d.IsFile place ↔ ∃ content rights, d.get? place = some (.file content rights) := by
  rw [IsFile, kind?]
  cases d.get? place with
  | none => simp
  | some node => cases node <;> simp [Node.kind]

theorem isDirectory_iff :
    d.IsDirectory place ↔ ∃ rights, d.get? place = some (.directory rights) := by
  rw [IsDirectory, kind?]
  cases d.get? place with
  | none => simp
  | some node => cases node <;> simp [Node.kind]

theorem IsFile.get?_ne_none (h : d.IsFile place) : d.get? place ≠ none := by
  obtain ⟨content, rights, hnode⟩ := isFile_iff.1 h
  simp [hnode]

theorem IsFile.not_isDirectory (h : d.IsFile place) : ¬ d.IsDirectory place := by
  intro hdirectory
  cases Option.some.inj (h.symm.trans hdirectory)

/-- A place that holds a node of another kind is no file. -/
theorem not_isFile_of_get? (h : d.get? place = some node) (hkind : node.kind ≠ .file) :
    ¬ d.IsFile place := by
  intro hfile
  rw [IsFile, kind?, h] at hfile
  exact hkind (Option.some.inj hfile)

/-! ## Taking nodes away -/

/-- The disk without what is at some places. -/
def without (d : Disk) (places : List Place) : Disk :=
  { d with nodes := d.nodes.filter (·.1 ∉ places) }

@[simp] theorem without_nil (d : Disk) : d.without [] = d := by
  rw [without, List.filter_eq_self.2 fun pair _ => by simp]

theorem erase_without (d : Disk) (places : List Place) (place : Place) :
    (d.without places).erase place = d.without (places ++ [place]) := by
  simp only [without, erase, List.filter_filter]
  congr 1
  refine List.filter_congr fun pair _ => ?_
  rw [Bool.eq_iff_iff]
  simp [and_comm]

/-- Where files are taken away, nothing is found at their places, and everything as before at all
others. -/
theorem get?_without (d : Disk) (places : List Place) (place : Place) :
    (d.without places).get? place = if place ∈ places then none else d.get? place := by
  induction places using List.reverseRecOn with
  | nil => simp
  | append_singleton places other ih =>
    rw [← erase_without, get?_erase, ih]
    by_cases h : place = other <;> simp [h]

/-- What is left was there before. -/
theorem get?_of_without (h : (d.without places).get? place = some node) :
    place ∉ places ∧ d.get? place = some node := by
  rw [get?_without] at h
  split at h
  · cases h
  · next hnot => exact ⟨hnot, h⟩

/-- What is no file is left when files go away. -/
theorem get?_without_of_not_isFile (hfiles : ∀ file ∈ places, d.IsFile file)
    (h : ¬ d.IsFile place) : (d.without places).get? place = d.get? place := by
  rw [get?_without, if_neg fun hmem => h (hfiles place hmem)]

/-- Directories stay, since only files are taken away. -/
theorem isDirectory_without (hfiles : ∀ file ∈ places, d.IsFile file) (h : d.IsDirectory place) :
    (d.without places).IsDirectory place := by
  rw [IsDirectory, kind?, get?_without_of_not_isFile hfiles fun hfile => hfile.not_isDirectory h]
  exact h

/-! ## Trees -/

/-- A disk whose nodes form a tree. -/
structure Tree (d : Disk) : Prop where
  /-- the top is a directory -/
  top : d.IsDirectory []
  /-- no place holds two nodes -/
  nodup : (d.nodes.map Prod.fst).Nodup
  /-- every other node has a name, and is in a directory -/
  inside : ∀ pair ∈ d.nodes, ∀ name ∈ pair.1.getLast?,
    Path.IsName name ∧ d.IsDirectory pair.1.dropLast
  /-- the working directory is there -/
  cwd : d.IsDirectory d.cwd

/-- What is in a directory lies in it under its last name. -/
theorem concat_of_isIn (h : isIn place folder = true) :
    folder ++ [place.getLast?.getD []] = place := by
  obtain ⟨hne, rfl⟩ : place ≠ [] ∧ place.dropLast = folder := by simpa [isIn] using h
  rw [List.getLast?_eq_some_getLast hne, Option.getD_some, List.dropLast_append_getLast]

instance (d : Disk) : Decidable d.Tree :=
  decidable_of_iff (d.IsDirectory [] ∧ (d.nodes.map Prod.fst).Nodup ∧
    (∀ pair ∈ d.nodes, ∀ name ∈ pair.1.getLast?,
      Path.IsName name ∧ d.IsDirectory pair.1.dropLast) ∧ d.IsDirectory d.cwd)
    ⟨fun h => ⟨h.1, h.2.1, h.2.2.1, h.2.2.2⟩, fun h => ⟨h.top, h.nodup, h.inside, h.cwd⟩⟩

theorem mem_nodes_of_get? (h : d.get? place = some node) : (place, node) ∈ d.nodes := by
  obtain ⟨before, behind, hnodes, -⟩ := List.lookup_eq_some_iff.1 h
  rw [hnodes]
  simp

/-- Where no place holds two nodes, each node is the one that is found. -/
theorem get?_of_mem_of_nodup (hnodup : (d.nodes.map Prod.fst).Nodup)
    (hmem : (place, node) ∈ d.nodes) : d.get? place = some node := by
  obtain ⟨before, behind, hnodes⟩ := List.append_of_mem hmem
  -- no node before this one is at its place, so the lookup stops here
  rw [hnodes, List.map_append, List.map_cons, List.nodup_append] at hnodup
  refine List.lookup_eq_some_iff.2 ⟨before, behind, hnodes, fun pair hpair => ?_⟩
  exact bne_iff_ne.2 fun heq =>
    hnodup.2.2 pair.1 (List.mem_map_of_mem hpair) place List.mem_cons_self heq.symm

namespace Tree

/-- In a tree no place is taken twice, so what is among the nodes is what is found. -/
theorem get?_of_mem_nodes (h : d.Tree) (hmem : (place, node) ∈ d.nodes) :
    d.get? place = some node :=
  get?_of_mem_of_nodup h.nodup hmem

/-- In a tree whatever stands below a place stands in a directory, under a name. It is how a scan
gets from the root to every node. -/
theorem inside_of_get? (h : d.Tree) (hnode : d.get? (folder ++ [name]) = some node) :
    Path.IsName name ∧ d.IsDirectory folder := by
  have hinside := h.inside _ (mem_nodes_of_get? hnode) name
  rw [List.getLast?_concat, List.dropLast_concat] at hinside
  exact hinside rfl

/-- Every name of a place that holds something can be spelled. -/
theorem isName_of_mem (h : d.Tree) (hnode : d.get? place ≠ none) (hname : name ∈ place) :
    Path.IsName name := by
  induction place using List.reverseRecOn with
  | nil => exact absurd hname List.not_mem_nil
  | append_singleton folder last ih =>
    obtain ⟨node, hnode⟩ := Option.ne_none_iff_exists'.1 hnode
    obtain ⟨hlast, hfolder⟩ := h.inside_of_get? hnode
    rcases List.mem_append.1 hname with hname | hname
    · obtain ⟨rights, hget⟩ := isDirectory_iff.1 hfolder
      exact ih (by simp [hget]) hname
    · rw [List.mem_singleton.1 hname]
      exact hlast

/-- What has something behind it is a directory. -/
theorem isDirectory_of_append (h : d.Tree) {rest : List Bytes} (hrest : rest ≠ [])
    (hnode : d.get? (folder ++ rest) ≠ none) : d.IsDirectory folder := by
  induction rest using List.reverseRecOn with
  | nil => exact absurd rfl hrest
  | append_singleton rest last ih =>
    obtain ⟨node, hnode⟩ := Option.ne_none_iff_exists'.1 hnode
    rw [← List.append_assoc] at hnode
    have hfolder := (h.inside_of_get? hnode).2
    by_cases hnil : rest = []
    · rwa [hnil, List.append_nil] at hfolder
    · obtain ⟨rights, hget⟩ := isDirectory_iff.1 hfolder
      exact ih hnil (by simp [hget])

/-- The entries of a directory are the nodes in it. -/
theorem mem_entriesAt (h : d.Tree) {entry : Entry} :
    entry ∈ d.entriesAt folder ↔
      ∃ node, d.get? (folder ++ [entry.name]) = some node ∧ node.kind = entry.kind := by
  rw [entriesAt, List.mem_map]
  constructor
  · rintro ⟨⟨place, node⟩, hmem, rfl⟩
    obtain ⟨hmem, hin⟩ := List.mem_filter.1 hmem
    refine ⟨node, ?_, rfl⟩
    rw [concat_of_isIn hin]
    exact h.get?_of_mem_nodes hmem
  · rintro ⟨node, hnode, hkind⟩
    refine ⟨(folder ++ [entry.name], node), List.mem_filter.2 ⟨mem_nodes_of_get? hnode, ?_⟩, ?_⟩
    · simp [isIn]
    · obtain ⟨entryName, entryKind⟩ := entry
      obtain rfl : node.kind = entryKind := hkind
      simp

/-- No two entries of a directory have the same name. -/
theorem nodup_entriesAt (h : d.Tree) (folder : Place) :
    ((d.entriesAt folder).map Entry.name).Nodup := by
  rw [entriesAt, List.map_map]
  refine List.Nodup.map_on ?_ (List.Nodup.filter _ (List.Nodup.of_map _ h.nodup))
  rintro ⟨place, node⟩ hpair ⟨other, node'⟩ hother hname
  obtain ⟨hmem, hin⟩ := List.mem_filter.1 hpair
  obtain ⟨hmem', hin'⟩ := List.mem_filter.1 hother
  -- the directory and the name make the place, and the place holds one node
  obtain rfl : place = other := by
    rw [← concat_of_isIn hin, ← concat_of_isIn hin']
    exact congrArg (folder ++ [·]) hname
  rw [Option.some.inj ((h.get?_of_mem_nodes hmem).symm.trans (h.get?_of_mem_nodes hmem'))]

/-- A tree stays one when files go away. Nothing stands below a file, so nothing loses the directory
that it stands in. -/
theorem without (h : d.Tree) (hfiles : ∀ file ∈ places, d.IsFile file) :
    (d.without places).Tree where
  top := isDirectory_without hfiles h.top
  nodup := h.nodup.sublist (List.Sublist.map _ List.filter_sublist)
  inside pair hpair name hname := by
    obtain ⟨hisName, hfolder⟩ := h.inside pair (List.mem_filter.1 hpair).1 name hname
    exact ⟨hisName, isDirectory_without hfiles hfolder⟩
  cwd := isDirectory_without hfiles h.cwd

end Tree

/-! ## Disks written out -/

/-- The disk with some directories and some files with their contents, and every right granted. -/
def laidOut (cwd : List String) (folders : List (List String))
    (files : List (List String × String)) : Disk where
  nodes := folders.map (fun folder => (folder.map Utf8.encode, .directory .full)) ++
    files.map fun file => (file.1.map Utf8.encode, .file (Utf8.encode file.2) .full)
  cwd := cwd.map Utf8.encode
  superuser := true

end Baseline.Disk
