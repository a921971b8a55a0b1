import Baseline.Proofs.Disk.Unlink
import Mathlib.Algebra.Order.Group.Multiset

/-!
# What a move does

A move that is refused leaves the disk as it is, and one that succeeds has a `Passage`: from the
entry that the one path names to the entry that the other names, whether or not there is one
(`of_rename_eq_ok`). If both are the same entry nothing happens. Otherwise what is in the way goes,
and the node takes its place, with all that is below it.

Places change by `rebase`. It is one to one on what is left of the disk, because nothing lies below
what is in the way, and it takes folders to folders, so a tree stays one (`Tree.relocate`).

`contents` forgets the places and keeps what is in the files and links. Of this a move loses what
was in the way and nothing else, and `overwritten` says what that is (`tree_and_contents_of_rename`).
-/

namespace Baseline

/-- What is lost with a node: the content of a file, or the path that a link stands for. -/
inductive Content where
  /-- the content of a file -/
  | file (bytes : Bytes)
  /-- the path that a link stands for -/
  | link (target : Path)
deriving DecidableEq, Repr

/-- What a node holds; a directory holds nothing itself. -/
def Node.content? : Node → Option Content
  | file bytes _ => some (.file bytes)
  | link target => some (.link target)
  | directory _ => none

namespace Disk

/-- What the files and the links of a disk hold, wherever they are. -/
def contents (d : Disk) : Multiset Content := ↑(d.nodes.filterMap fun pair => pair.2.content?)

/-- What the file or the link at a place holds, if one is there. -/
def contentAt (d : Disk) (place : Place) : Option Content := (d.get? place).bind Node.content?

/-- What is lost when the entry at one path takes the place of the entry at another: what the other
holds, if it is a file or a link and not the same entry. -/
def overwritten (d : Disk) (p q : Path) : Option Content :=
  match d.locate false p, d.locate false q with
  | .ok source, .ok target => if source = target then none else d.contentAt target
  | _, _ => none

variable {d d' : Disk} {p q : Path} {folder place : Place} {name : Bytes}
  {node : Node}

/-- With a node goes what it holds, and nothing else. -/
theorem contents_erase (htree : d.Tree) (place : Place) :
    (d.erase place).contents + ((d.contentAt place).toList : Multiset Content) = d.contents := by
  cases hnode : d.get? place with
  | none =>
    rw [erase_eq_self_iff.2 hnode, contentAt, hnode]
    exact add_zero _
  | some node =>
    obtain ⟨before, behind, hnodes⟩ := List.append_of_mem (mem_nodes_of_get? hnode)
    have hnodup := htree.nodup
    rw [hnodes, List.map_append, List.map_cons] at hnodup
    -- the place is in no other pair, so the others stay
    have hothers : ∀ pair ∈ before ++ behind, pair.1 ≠ place := by
      intro pair hpair heq
      have hnotin := (List.nodup_cons.1 (List.nodup_middle.1 hnodup)).1
      rw [← List.map_append] at hnotin
      exact hnotin (List.mem_map.2 ⟨pair, hpair, heq⟩)
    have hleft : (d.erase place).nodes = before ++ behind := by
      simp only [erase, hnodes, List.filter_append, List.filter_cons, bne_self_eq_false,
        Bool.false_eq_true, if_false]
      rw [← List.filter_append, List.filter_eq_self.2 fun pair hpair =>
        bne_iff_ne.2 (hothers pair hpair)]
    rw [contents, contents, hleft, hnodes, contentAt, hnode]
    simp only [List.filterMap_append, List.filterMap_cons, Option.bind_some]
    cases node.content? with
    | none => exact add_zero _
    | some content =>
      refine Multiset.coe_eq_coe.2 (List.perm_append_comm.trans ?_)
      simpa using List.perm_middle.symm

/-- Where the nodes are makes no difference to what they hold. -/
theorem contents_relocate (d : Disk) (source target : Place) :
    (d.relocate source target).contents = (d.erase target).contents := by
  rw [contents, contents, relocate, List.filterMap_map]
  rfl

/-! ## Places that change -/

theorem rebase_append (source target rest : Place) :
    rebase source target (source ++ rest) = target ++ rest := by
  rw [rebase, if_pos (List.isPrefixOf_iff_prefix.2 (List.prefix_append source rest)),
    List.drop_left]

/-- What is not below the source stays where it is. -/
theorem rebase_of_not_below {source target : Place} (h : ¬ source <+: place) :
    rebase source target place = place := by
  rw [rebase, if_neg fun hbelow => h (List.isPrefixOf_iff_prefix.1 hbelow)]

/-- A directory replaces directories only, and only a directory replaces one. -/
theorem kind_iff_of_suits {other : Node} (h : suits node (some other) = .ok ()) :
    node.kind = .directory ↔ other.kind = .directory := by
  cases node <;> cases other <;> simp_all [suits, Node.kind]

/-- What is moved, and where it goes. -/
structure Passage where
  /-- the directory from which it is taken -/
  sourceFolder : Place
  /-- its name there -/
  sourceName : Bytes
  /-- the directory into which it is put -/
  targetFolder : Place
  /-- its name there -/
  targetName : Bytes
  /-- the node itself -/
  node : Node

namespace Passage

/-- Where the node is before. -/
def source (m : Passage) : Place := m.sourceFolder ++ [m.sourceName]

/-- Where the node is afterwards. -/
def target (m : Passage) : Place := m.targetFolder ++ [m.targetName]

theorem getLast?_target (m : Passage) : m.target.getLast? = some m.targetName :=
  List.getLast?_concat

theorem dropLast_target (m : Passage) : m.target.dropLast = m.targetFolder :=
  List.dropLast_concat

theorem rebase_source (m : Passage) : rebase m.source m.target m.source = m.target := by
  have hrebase := rebase_append m.source m.target []
  rwa [List.append_nil, List.append_nil] at hrebase

/-- The way is clear for a node to another place. -/
structure Clear (m : Passage) (d : Disk) : Prop where
  /-- the node is there -/
  present : d.get? m.source = some m.node
  /-- it goes into a directory -/
  folder : d.IsDirectory m.targetFolder
  /-- under a name that a path can spell -/
  name : Path.IsName m.targetName
  /-- it goes to another place -/
  apart : m.source ≠ m.target
  /-- which is not below it -/
  notInto : ¬ m.source <+: m.targetFolder
  /-- and below which it is not -/
  notOver : ¬ m.target <+: m.sourceFolder
  /-- what is in the way may be replaced by it -/
  suited : suits m.node (d.get? m.target) = .ok ()
  /-- and nothing lies in it -/
  vacant : d.vacant m.target = .ok ()

namespace Clear

variable {m : Passage}

/-- The target of a clear passage is not below its source, so the node does not move into itself. -/
theorem target_not_below (h : m.Clear d) : ¬ m.source <+: m.target := by
  intro hbelow
  rcases List.prefix_concat_iff.1 hbelow with heq | hinto
  · exact h.apart heq
  · exact h.notInto hinto

/-- Nothing lies below what is in the way. What is in the way is a file, a link or an empty
directory, so it can be replaced without a loss below. -/
theorem eq_target_of_below (h : m.Clear d) (htree : d.Tree) (hnode : d.get? place ≠ none)
    (hbelow : m.target <+: place) : place = m.target := by
  obtain ⟨rest, rfl⟩ := hbelow
  cases rest with
  | nil => exact List.append_nil _
  | cons first rest =>
    -- already the first name below would be an entry
    have hfirst : d.get? (m.target ++ [first]) ≠ none := by
      cases rest with
      | nil => exact hnode
      | cons second rest =>
        have hfolder : d.IsDirectory (m.target ++ [first]) := by
          apply htree.isDirectory_of_append (List.cons_ne_nil second rest)
          rwa [List.append_assoc, List.singleton_append]
        obtain ⟨rights, hget⟩ := isDirectory_iff.1 hfolder
        rw [hget]
        exact Option.some_ne_none _
    obtain ⟨entry, hentry⟩ := Option.ne_none_iff_exists'.1 hfirst
    have hmem : (⟨first, entry.kind⟩ : Entry) ∈ d.entriesAt m.target :=
      htree.mem_entriesAt.2 ⟨entry, hentry, rfl⟩
    have hvacant := h.vacant
    rw [Disk.vacant] at hvacant
    split at hvacant
    · next hempty =>
      rw [List.isEmpty_iff.1 hempty] at hmem
      exact absurd hmem List.not_mem_nil
    · cases hvacant

/-- Two nodes that are left do not come to one place. -/
theorem rebase_inj (h : m.Clear d) (htree : d.Tree) {other : Place}
    (hplace : d.get? place ≠ none) (hother : d.get? other ≠ none) (hleft : place ≠ m.target)
    (hleft' : other ≠ m.target)
    (heq : rebase m.source m.target place = rebase m.source m.target other) : place = other := by
  by_cases hmoves : m.source <+: place
  · obtain ⟨rest, rfl⟩ := hmoves
    rw [rebase_append] at heq
    by_cases hmoves' : m.source <+: other
    · obtain ⟨rest', rfl⟩ := hmoves'
      rw [rebase_append] at heq
      rw [List.append_cancel_left heq]
    · -- the one that stays would lie where the other goes
      rw [rebase_of_not_below hmoves'] at heq
      exact absurd (h.eq_target_of_below htree hother ⟨rest, heq⟩) hleft'
  · rw [rebase_of_not_below hmoves] at heq
    by_cases hmoves' : m.source <+: other
    · obtain ⟨rest', rfl⟩ := hmoves'
      rw [rebase_append] at heq
      exact absurd (h.eq_target_of_below htree hplace ⟨rest', heq.symm⟩) hleft
    · rwa [rebase_of_not_below hmoves'] at heq

/-- After the move no place is taken twice: those that move do not meet each other, and what was at
the target has gone before. -/
theorem nodup_relocate (h : m.Clear d) (htree : d.Tree) :
    ((d.relocate m.source m.target).nodes.map Prod.fst).Nodup := by
  have hkept : ((d.erase m.target).nodes.map Prod.fst).Nodup :=
    htree.nodup.sublist (List.Sublist.map _ List.filter_sublist)
  have hmap : (d.relocate m.source m.target).nodes.map Prod.fst =
      ((d.erase m.target).nodes.map Prod.fst).map (rebase m.source m.target) := by
    rw [relocate, List.map_map, List.map_map]
    rfl
  rw [hmap]
  refine hkept.map_on ?_
  intro place hplace other hother heq
  obtain ⟨⟨_, node⟩, hmem, rfl⟩ := List.mem_map.1 hplace
  obtain ⟨⟨_, node'⟩, hmem', rfl⟩ := List.mem_map.1 hother
  obtain ⟨hmem, hne⟩ := List.mem_filter.1 hmem
  obtain ⟨hmem', hne'⟩ := List.mem_filter.1 hmem'
  have hthere := htree.get?_of_mem_nodes hmem
  have hthere' := htree.get?_of_mem_nodes hmem'
  exact h.rebase_inj htree (by simp [hthere]) (by simp [hthere']) (bne_iff_ne.1 hne)
    (bne_iff_ne.1 hne') heq

/-- Every node but the one in the way is found at its new place. -/
theorem get?_relocate (h : m.Clear d) (htree : d.Tree) (hnode : d.get? place = some node)
    (hleft : place ≠ m.target) :
    (d.relocate m.source m.target).get? (rebase m.source m.target place) = some node := by
  apply get?_of_mem_of_nodup (h.nodup_relocate htree)
  refine List.mem_map.2 ⟨(place, node), List.mem_filter.2 ⟨mem_nodes_of_get? hnode, ?_⟩, rfl⟩
  exact bne_iff_ne.2 hleft

/-- A directory is one after the move as well, at its new place, unless it was in the way. It is
what makes the result a tree again. -/
theorem isDirectory_relocate (h : m.Clear d) (htree : d.Tree) (hplace : d.IsDirectory place)
    (hleft : place ≠ m.target) :
    (d.relocate m.source m.target).IsDirectory (rebase m.source m.target place) := by
  obtain ⟨rights, hnode⟩ := isDirectory_iff.1 hplace
  exact isDirectory_iff.2 ⟨rights, h.get?_relocate htree hnode hleft⟩

theorem isDirectory_source (h : m.Clear d) (htarget : d.IsDirectory m.target) :
    d.IsDirectory m.source := by
  obtain ⟨rights, hnode⟩ := isDirectory_iff.1 htarget
  have hkind := (kind_iff_of_suits (hnode ▸ h.suited)).2 rfl
  rw [IsDirectory, kind?, h.present, Option.map_some, hkind]

/-- A folder of the disk is one afterwards, where the move puts it. -/
theorem isDirectory_rebase (h : m.Clear d) (htree : d.Tree) (hplace : d.IsDirectory place) :
    (d.relocate m.source m.target).IsDirectory (rebase m.source m.target place) := by
  by_cases htarget : place = m.target
  · -- the directory in the way makes room for the one that moves
    subst htarget
    have hmoved := h.isDirectory_relocate htree (h.isDirectory_source hplace) h.apart
    rw [rebase_source] at hmoved
    rwa [rebase_of_not_below h.target_not_below]
  · exact h.isDirectory_relocate htree hplace htarget

/-- What has a name has one afterwards, and is in a directory. -/
theorem inside_relocate (h : m.Clear d) (htree : d.Tree) (hnode : d.get? place = some node)
    (hleft : place ≠ m.target) :
    ∀ name ∈ (rebase m.source m.target place).getLast?, Path.IsName name ∧
      (d.relocate m.source m.target).IsDirectory (rebase m.source m.target place).dropLast := by
  intro name hname
  by_cases hmoves : m.source <+: place
  · obtain ⟨rest, rfl⟩ := hmoves
    rw [rebase_append] at hname ⊢
    rcases List.eq_nil_or_concat' rest with rfl | ⟨front, last, rfl⟩
    · -- the node itself
      have hfolder := h.isDirectory_rebase htree h.folder
      rw [rebase_of_not_below h.notInto] at hfolder
      rw [List.append_nil, getLast?_target] at hname
      rw [List.append_nil, dropLast_target]
      obtain rfl : m.targetName = name := Option.some.inj hname
      exact ⟨h.name, hfolder⟩
    · -- what is below it
      rw [← List.append_assoc, List.getLast?_concat] at hname
      rw [← List.append_assoc] at hnode
      rw [← List.append_assoc, List.dropLast_concat, ← rebase_append]
      obtain ⟨hlast, hfolder⟩ := htree.inside_of_get? hnode
      obtain rfl : last = name := Option.some.inj hname
      exact ⟨hlast, h.isDirectory_rebase htree hfolder⟩
  · rw [rebase_of_not_below hmoves] at hname ⊢
    obtain ⟨hlast, hfolder⟩ := htree.inside _ (mem_nodes_of_get? hnode) name hname
    have hstays : ¬ m.source <+: place.dropLast := fun hbelow =>
      hmoves (hbelow.trans (List.dropLast_prefix place))
    have hsame : rebase m.source m.target place.dropLast = place.dropLast :=
      rebase_of_not_below hstays
    rw [← hsame]
    exact ⟨hlast, h.isDirectory_rebase htree hfolder⟩

end Clear

end Passage

/-- A tree stays one when a node moves. Every node still stands in a directory: if its directory
moved, it moved along, and if not, the directory is where it was. -/
theorem Tree.relocate {m : Passage} (htree : d.Tree) (h : m.Clear d) :
    (d.relocate m.source m.target).Tree where
  top := by
    have htop : ¬ m.source <+: [] := by simp [Passage.source]
    have hsame : rebase m.source m.target [] = [] := rebase_of_not_below htop
    rw [← hsame]
    exact h.isDirectory_rebase htree htree.top
  nodup := h.nodup_relocate htree
  inside pair hpair := by
    obtain ⟨⟨place, node⟩, hmem, rfl⟩ := List.mem_map.1 hpair
    obtain ⟨hmem, hleft⟩ := List.mem_filter.1 hmem
    exact h.inside_relocate htree (htree.get?_of_mem_nodes hmem) (bne_iff_ne.1 hleft)
  cwd := h.isDirectory_rebase htree htree.cwd

/-! ## Moves that succeed -/

namespace Passage

/-- A passage from what the one path names to what the other names. -/
structure Joins (m : Passage) (d : Disk) (p q : Path) : Prop where
  /-- where it starts -/
  source : d.Names p m.sourceFolder m.sourceName
  /-- where it ends -/
  target : d.Names q m.targetFolder m.targetName
  /-- the node is there -/
  present : d.get? m.source = some m.node
  /-- only for a directory the paths may end in a slash -/
  lax : m.node.kind ≠ .directory → p.endsInSlash = false ∧ q.endsInSlash = false

/-- What a move along a passage loses. -/
theorem Joins.overwritten_eq {m : Passage} (h : m.Joins d p q)
    (hsuited : m.source ≠ m.target → suits m.node (d.get? m.target) = .ok ()) :
    d.overwritten p q = if m.source = m.target then none else d.contentAt m.target := by
  have hsource : d.locate false p = .ok m.source :=
    h.source.locate_of_present h.present fun hkind => (h.lax hkind).1
  rw [overwritten, hsource]
  cases hnode : d.get? m.target with
  | none =>
    have htarget : d.locate false q = .error .notFound := h.target.locate_of_absent hnode false
    rw [htarget, contentAt, hnode]
    exact (ite_self none).symm
  | some other =>
    -- a slash at the end demands a directory, and only a directory makes room for one
    have hlax : other.kind ≠ .directory → q.endsInSlash = false := by
      intro hkind
      refine (h.lax fun hmoved => hkind ?_).2
      by_cases hsame : m.source = m.target
      · rw [← hsame, h.present] at hnode
        exact Option.some.inj hnode ▸ hmoved
      · exact (kind_iff_of_suits (hnode ▸ hsuited hsame)).1 hmoved
    have htarget : d.locate false q = .ok m.target := h.target.locate_of_present hnode hlax
    rw [htarget]

end Passage

/-- A check that refuses is passed only if what it looks for is not the case. -/
theorem of_check {α : Type} {c : Prop} [Decidable c] {e : Errno} {rest : Unit → Except Errno α}
    {a : α} (h : (if c then throw e >>= rest else rest ()) = .ok a) : ¬ c ∧ rest () = .ok a := by
  by_cases hc : c
  · rw [if_pos hc] at h
    cases h
  · rw [if_neg hc] at h
    exact ⟨hc, h⟩

/-- A move that succeeds goes along a passage: it changes nothing where both ends are the same, and
otherwise takes the node from the one to the other. -/
theorem of_rename_eq_ok (h : d.rename p q = .ok d') :
    ∃ m : Passage, m.Joins d p q ∧
      (m.source = m.target ∧ d' = d ∨
        m.Clear d ∧ d' = d.relocate m.source m.target) := by
  obtain ⟨⟨sourceFolder, sourceName?, sourceStrict⟩, hsource, h⟩ := bind_eq_ok_iff.1 h
  obtain ⟨⟨targetFolder, targetName?, targetStrict⟩, htarget, h⟩ := bind_eq_ok_iff.1 h
  cases sourceName? with
  | none => cases h
  | some sourceName =>
    cases targetName? with
    | none => cases h
    | some targetName =>
      obtain ⟨node?, hlookUp, h⟩ := bind_eq_ok_iff.1 h
      cases node? with
      | none => cases h
      | some node =>
        obtain ⟨inTheWay, hlookUp', h⟩ := bind_eq_ok_iff.1 h
        obtain ⟨hfrom, rfl, hnode⟩ := Names.of_slot hsource hlookUp
        obtain ⟨hto, rfl, hway⟩ := Names.of_slot htarget hlookUp'
        obtain ⟨hlax, h⟩ := of_check h
        obtain ⟨hinto, h⟩ := of_check h
        obtain ⟨hover, h⟩ := of_check h
        have hjoins : (⟨sourceFolder, sourceName, targetFolder, targetName, node⟩ : Passage).Joins
            d p q :=
          ⟨hfrom, hto, hnode, by simpa using hlax⟩
        refine ⟨_, hjoins, ?_⟩
        split at h
        · next hsame => exact .inl ⟨eq_of_beq hsame, (Except.ok.inj h).symm⟩
        · next hapart =>
          obtain ⟨⟨⟩, -, h⟩ := bind_eq_ok_iff.1 h
          obtain ⟨⟨⟩, -, h⟩ := bind_eq_ok_iff.1 h
          obtain ⟨⟨⟩, hsuited, h⟩ := bind_eq_ok_iff.1 h
          obtain ⟨⟨⟩, -, h⟩ := bind_eq_ok_iff.1 h
          obtain ⟨⟨⟩, hvacant, h⟩ := bind_eq_ok_iff.1 h
          refine .inr ⟨?_, (Except.ok.inj h).symm⟩
          exact {
            present := hnode
            folder := hto.isDirectory
            name := hto.isName
            apart := fun heq => hapart (beq_iff_eq.2 heq)
            notInto := fun hbelow => hinto (List.isPrefixOf_iff_prefix.2 hbelow)
            notOver := fun hbelow => hover (List.isPrefixOf_iff_prefix.2 hbelow)
            suited := hway ▸ hsuited
            vacant := hvacant }

/-- A move that succeeds keeps a tree a tree, and what it loses is what it overwrites. -/
theorem tree_and_contents_of_rename (htree : d.Tree) (h : d.rename p q = .ok d') :
    d'.Tree ∧ d'.contents + ((d.overwritten p q).toList : Multiset Content) = d.contents := by
  obtain ⟨m, hjoins, ⟨hsame, rfl⟩ | ⟨hclear, rfl⟩⟩ := of_rename_eq_ok h
  · rw [hjoins.overwritten_eq fun hapart => absurd hsame hapart, if_pos hsame]
    exact ⟨htree, add_zero _⟩
  · rw [hjoins.overwritten_eq fun _ => hclear.suited, if_neg hclear.apart, contents_relocate]
    exact ⟨htree.relocate hclear, contents_erase htree m.target⟩

end Disk

end Baseline
