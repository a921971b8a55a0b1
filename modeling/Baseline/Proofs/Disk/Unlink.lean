import Baseline.Disk.Change
import Baseline.Proofs.Desk.Run
import Baseline.Proofs.Disk.Route

/-!
# What a deletion takes

A path `Names` an entry of a directory if the disk takes the path and reaches the directory; whether
the entry is there is another question. A deletion either takes the one node that its path names,
never a directory, or leaves the disk as it is. `Takes` is the first case, and `takes_iff` says when
it comes.

Deletions change the disk under each other. As long as only files go this makes no difference to
where a path leads, so what a run of deletions takes can be read off the disk from which it starts:

* `Takes.of_without`: what is taken later would have been taken at once;
* `Takes.without`: what would be taken at once is taken later, unless it is gone already;
* `leftBy_of_deletions`: the two together, for a whole run.
-/

namespace Baseline.Disk

variable {d d' : Disk} {p : Path} {path : String} {folder place : Place} {places : List Place}
  {name : Bytes} {node : Node}

/-! ## Slots -/

/-- The last name along a path, and the directory to which the names before it lead. -/
structure SlotAt (d : Disk) (p : Path) (folder : Place) (name : Bytes) : Prop where
  /-- the name is the last one -/
  last : p.names.getLast? = some name
  /-- the names before it lead to the directory -/
  route : d.resolve true linkLimit (d.origin p) p.names.dropLast true = .ok folder

theorem SlotAt.unique {folder' : Place} {name' : Bytes} (h : d.SlotAt p folder name)
    (h' : d.SlotAt p folder' name') : folder = folder' ∧ name = name' :=
  ⟨Except.ok.inj (h.route.symm.trans h'.route), Option.some.inj (h.last.symm.trans h'.last)⟩

theorem SlotAt.of_without (h : (d.without places).SlotAt p folder name) :
    d.SlotAt p folder name := by
  obtain ⟨k, hk, hroute⟩ := resolve_strict_iff.1 h.route
  exact ⟨h.last, resolve_strict_iff.2 ⟨k, hk, hroute.of_without⟩⟩

/-- The slot of a path stays when files go, because the way to it leads over directories and links
only. -/
theorem SlotAt.without (h : d.SlotAt p folder name) (hfiles : ∀ file ∈ places, d.IsFile file) :
    (d.without places).SlotAt p folder name := by
  obtain ⟨k, hk, hroute⟩ := resolve_strict_iff.1 h.route
  exact ⟨h.last, resolve_strict_iff.2 ⟨k, hk, hroute.without hfiles⟩⟩

/-- A regular file is at the end of a path: no link, and not what one leads to. Neither rights nor
the length of the path count. -/
def FileAt (d : Disk) (p : Path) (place : Place) : Prop :=
  ∃ folder name, d.SlotAt p folder name ∧ place = folder ++ [name] ∧ d.IsFile place

theorem FileAt.isFile (h : d.FileAt p place) : d.IsFile place := by
  obtain ⟨folder, name, -, -, hfile⟩ := h
  exact hfile

/-- The disk reports the slot of a path that it accepts, where the directory grants search and the
last name points in no direction. -/
theorem slot_eq (haccepts : accepts p = .ok ()) (h : d.SlotAt p folder name)
    (hsearchable : d.searchable folder = .ok ()) (hhere : name ≠ Path.here)
    (habove : name ≠ Path.above) : d.slot p = .ok ⟨folder, some name, p.endsInSlash⟩ := by
  have hdirection : (name == Path.here || name == Path.above) = false := by
    simp [hhere, habove]
  rw [slot, haccepts]
  simp only [bind, Except.bind, h.last, h.route, hsearchable, hdirection]
  rfl

/-- The slot of a path, if it has a name. -/
theorem of_slot_eq_ok {strict : Bool} (h : d.slot p = .ok ⟨folder, some name, strict⟩) :
    accepts p = .ok () ∧ d.SlotAt p folder name ∧ d.searchable folder = .ok () ∧
      name ≠ Path.here ∧ name ≠ Path.above ∧ strict = p.endsInSlash := by
  obtain ⟨⟨⟩, haccepts, h⟩ := bind_eq_ok_iff.1 h
  cases hlast : p.names.getLast? with
  | none =>
    rw [hlast] at h
    cases h
  | some last =>
    rw [hlast] at h
    obtain ⟨folder', hroute, h⟩ := bind_eq_ok_iff.1 h
    obtain ⟨⟨⟩, hsearchable, h⟩ := bind_eq_ok_iff.1 h
    obtain ⟨rfl, hname, hstrict⟩ := Slot.mk.inj (Except.ok.inj h)
    split at hname
    · cases hname
    · next hdirection =>
      obtain rfl : last = name := Option.some.inj hname
      simp only [Bool.or_eq_true, beq_iff_eq, not_or] at hdirection
      exact ⟨haccepts, ⟨hlast, hroute⟩, hsearchable, hdirection.1, hdirection.2, hstrict.symm⟩

/-- Looking up a name fails only if it is too long; otherwise it tells what is there, be it nothing.
-/
theorem lookUp_eq_ok_iff {node? : Option Node} :
    d.lookUp folder name = .ok node? ↔
      name.length ≤ nameLimit ∧ d.get? (folder ++ [name]) = node? := by
  rw [lookUp]
  split
  · next hlong => exact ⟨nofun, fun h => absurd h.1 (Nat.not_le.2 hlong)⟩
  · next hshort => simp [Nat.not_lt.1 hshort]

/-! ## What a path names -/

/-- A path names an entry of a directory, whether or not there is one. -/
structure Names (d : Disk) (p : Path) (folder : Place) (name : Bytes) : Prop
    extends SlotAt d p folder name where
  /-- the disk takes the path at all -/
  accepted : accepts p = .ok ()
  /-- its directory grants search -/
  searchable : d.searchable folder = .ok ()
  /-- the name is one to look up -/
  looksUp : LooksUp name

namespace Names

theorem isDirectory (h : d.Names p folder name) : d.IsDirectory folder := by
  obtain ⟨rights, hnode, -⟩ := permits_eq_ok_iff.1 h.searchable
  exact isDirectory_iff.2 ⟨rights, hnode⟩

theorem isName (h : d.Names p folder name) : Path.IsName name where
  toIsPiece := Path.isPiece_of_mem_names (List.mem_of_getLast? h.last)
  ne_here := h.looksUp.ne_here
  ne_above := h.looksUp.ne_above

/-- The path is followed to the directory, and the last name there. -/
theorem locate_eq (h : d.Names p folder name) (through : Bool) :
    ∃ links, d.locate through p = d.resolve through links folder [name] p.endsInSlash := by
  obtain ⟨k, hk, hroute⟩ := resolve_strict_iff.1 h.route
  obtain ⟨front, hfront⟩ := List.getLast?_eq_some_iff.1 h.last
  rw [hfront, List.dropLast_concat] at hroute
  refine ⟨linkLimit - k, ?_⟩
  rw [locate, h.accepted, hfront]
  exact hroute.resolve_append hk (List.cons_ne_nil name [])

/-- An entry that is there is located by the paths that name it. A slash at the end is right for a
directory only. -/
theorem locate_of_present (h : d.Names p folder name)
    (hnode : d.get? (folder ++ [name]) = some node)
    (hlax : node.kind ≠ .directory → p.endsInSlash = false) :
    d.locate false p = .ok (folder ++ [name]) := by
  obtain ⟨links, hlocate⟩ := h.locate_eq false
  rw [hlocate, resolve_eq_follow, follow_cons_of_looksUp h.searchable h.looksUp, hnode]
  cases node with
  | directory rights => rfl
  | file bytes rights => simp [hlax nofun]
  | link path => simp [hlax nofun]

/-- A path that names no entry leads nowhere, whether links are followed or not. -/
theorem locate_of_absent (h : d.Names p folder name) (hnone : d.get? (folder ++ [name]) = none)
    (through : Bool) : d.locate through p = .error .notFound := by
  obtain ⟨links, hlocate⟩ := h.locate_eq through
  rw [hlocate, resolve_eq_follow, follow_cons_of_looksUp h.searchable h.looksUp, hnone]

end Names

theorem Names.of_slot {strict : Bool} (h : d.slot p = .ok ⟨folder, some name, strict⟩)
    {node? : Option Node} (hlookUp : d.lookUp folder name = .ok node?) :
    d.Names p folder name ∧ strict = p.endsInSlash ∧ d.get? (folder ++ [name]) = node? := by
  obtain ⟨haccepts, hat, hsearchable, hhere, habove, hstrict⟩ := of_slot_eq_ok h
  obtain ⟨hlimit, hnode⟩ := lookUp_eq_ok_iff.1 hlookUp
  exact ⟨⟨hat, haccepts, hsearchable, hhere, habove, hlimit⟩, hstrict, hnode⟩

/-! ## One deletion -/

/-- The disk takes away what is at the end of a path. -/
structure Unlinks (d : Disk) (p : Path) (folder : Place) (name : Bytes) : Prop
    extends SlotAt d p folder name where
  /-- the disk takes the path at all -/
  accepted : accepts p = .ok ()
  /-- its directory grants search -/
  searchable : d.searchable folder = .ok ()
  /-- the name is one to look up -/
  looksUp : LooksUp name
  /-- it is the name of something -/
  present : d.get? (folder ++ [name]) ≠ none
  /-- which is no directory -/
  notDirectory : ¬ d.IsDirectory (folder ++ [name])
  /-- and none is demanded -/
  notStrict : p.endsInSlash = false
  /-- the directory grants changes -/
  writable : d.writable folder = .ok ()

theorem Unlinks.names (h : Unlinks d p folder name) : d.Names p folder name :=
  ⟨h.toSlotAt, h.accepted, h.searchable, h.looksUp⟩

/-- What is unlinked is gone and nothing else. -/
theorem Unlinks.unlink_eq (h : Unlinks d p folder name) :
    d.unlink p = .ok (d.erase (folder ++ [name])) := by
  obtain ⟨node, hnode⟩ := Option.ne_none_iff_exists'.1 h.present
  rw [unlink, slot_eq h.accepted h.toSlotAt h.searchable h.looksUp.ne_here h.looksUp.ne_above]
  simp only [bind, Except.bind, lookUp_eq_ok_iff.2 ⟨h.looksUp.le_limit, hnode⟩, h.notStrict,
    h.writable]
  cases node with
  | directory rights => exact absurd (isDirectory_iff.2 ⟨rights, hnode⟩) h.notDirectory
  | file content rights => rfl
  | link target => rfl

/-- An unlink that succeeds is one that `Unlinks` describes; the checks are inverted in the order in
which the disk makes them. -/
theorem of_unlink_eq_ok (h : d.unlink p = .ok d') :
    ∃ folder name, Unlinks d p folder name ∧ d' = d.erase (folder ++ [name]) := by
  obtain ⟨⟨folder, name?, strict⟩, hslot, h⟩ := bind_eq_ok_iff.1 h
  cases name? with
  | none => cases h
  | some name =>
    obtain ⟨haccepts, hat, hsearchable, hhere, habove, rfl⟩ := of_slot_eq_ok hslot
    obtain ⟨node?, hlookUp, h⟩ := bind_eq_ok_iff.1 h
    obtain ⟨hlimit, hnode⟩ := lookUp_eq_ok_iff.1 hlookUp
    -- what is left of the deletion is the same for a file and a link
    have hrest (hother : ¬ d.IsDirectory (folder ++ [name])) (hpresent : node? ≠ none)
        (h : (do
          if p.endsInSlash then throw .notDirectory
          d.writable folder
          return d.erase (folder ++ [name]) : Except Errno Disk) = .ok d') :
        ∃ folder name, Unlinks d p folder name ∧ d' = d.erase (folder ++ [name]) := by
      cases hstrict : p.endsInSlash with
      | true =>
        rw [hstrict] at h
        cases h
      | false =>
        rw [hstrict] at h
        obtain ⟨⟨⟩, hwritable, h⟩ := bind_eq_ok_iff.1 h
        exact ⟨folder, name, ⟨hat, haccepts, hsearchable, ⟨hhere, habove, hlimit⟩,
          hnode ▸ hpresent, hother, hstrict, hwritable⟩, (Except.ok.inj h).symm⟩
    cases node? with
    | none => cases h
    | some node =>
      have hkind : d.kind? (folder ++ [name]) = some node.kind := by rw [kind?, hnode]; rfl
      cases node with
      | directory rights =>
        cases hstrict : p.endsInSlash <;> rw [hstrict] at h
        · obtain ⟨⟨⟩, -, h⟩ := bind_eq_ok_iff.1 h
          cases h
        · cases h
      | file content rights =>
        exact hrest (by simp [IsDirectory, hkind, Node.kind]) (Option.some_ne_none _) h
      | link target =>
        exact hrest (by simp [IsDirectory, hkind, Node.kind]) (Option.some_ne_none _) h

/-! ## Deletions as a run asks for them -/

theorem run_change_ok {f : Disk → Except IoError Disk} (h : f d = .ok d') :
    (change f).run.run d = (.ok (), d') := by
  have hget : (get : ExceptT IoError (StateM Disk) Disk).run.run d = (.ok d, d) := rfl
  rw [change, run_bind_ok hget, h]
  rfl

theorem run_change_error {f : Disk → Except IoError Disk} {e : IoError} (h : f d = .error e) :
    (change f).run.run d = (.error e, d) := by
  have hget : (get : ExceptT IoError (StateM Disk) Disk).run.run d = (.ok d, d) := rfl
  rw [change, run_bind_ok hget, h]
  rfl

/-- A deletion is a request to unlink, in which a missing file is no failure; whenever it does not
take anything the disk stays. -/
theorem run_deleteAt_eq (p : Path) (d : Disk) :
    (deleteAt p).run.run d =
      match request [p] (d.unlink p) with
      | .ok d' => (.ok (), d')
      | .error e => (if e.isNotFound then .ok () else .error e, d) := by
  rw [deleteAt]
  cases hrequest : request [p] (d.unlink p) with
  | ok d' => exact run_change_ok (by rw [hrequest])
  | error e =>
    dsimp only
    by_cases hgone : e.isNotFound = true
    · rw [if_pos hgone]
      exact run_change_ok (by rw [hrequest]; exact if_pos hgone)
    · rw [if_neg hgone]
      exact run_change_error (by rw [hrequest]; exact if_neg hgone)

theorem run_delete_eq (path : String) (d : Disk) :
    (Disk.delete path).run.run d =
      match request [Path.ofString path] (d.unlink (Path.ofString path)) with
      | .ok d' => (.ok (), d')
      | .error e => (if e.isNotFound then .ok () else .error e, d) :=
  run_deleteAt_eq (Path.ofString path) d

theorem of_request_eq_ok {α : Type} {paths : List Path} {answer : Except Errno α} {a : α}
    (h : request paths answer = .ok a) : answer = .ok a := by
  unfold request at h
  split at h
  · cases h
  · cases answer with
    | error e => cases h
    | ok b => exact congrArg _ (Except.ok.inj h)

theorem request_eq_ok_iff {α : Type} {answer : Except Errno α} {a : α} :
    request [p] answer = .ok a ↔ 0 ∉ p.bytes ∧ answer = .ok a := by
  by_cases hzero : (0 : UInt8) ∈ p.bytes
  · simp [request, hzero]
  · cases answer <;> simp [request, hzero]

/-- A request fails for a zero byte in its path, before the disk is asked, or for what the disk
answers. -/
theorem request_eq_error_iff {α : Type} {answer : Except Errno α} {e : IoError} :
    request [p] answer = .error e ↔
      0 ∈ p.bytes ∧ .zeroByte = e ∨
        0 ∉ p.bytes ∧ ∃ errno, answer = .error errno ∧ .os errno = e := by
  by_cases hzero : (0 : UInt8) ∈ p.bytes
  · simp [request, hzero]
  · cases answer <;> simp [request, hzero]

theorem erase_eq_self_iff : d.erase place = d ↔ d.get? place = none := by
  refine ⟨fun h => ?_, fun h => ?_⟩
  · rw [← h, get?_erase, if_pos rfl]
  · rw [erase, List.filter_eq_self.2]
    intro pair hpair
    exact bne_iff_ne.2 (bne_iff_ne.1 (List.lookup_eq_none_iff.1 h pair hpair)).symm

/-- A deletion that succeeds and takes the node at a place. -/
def Takes (d : Disk) (path : String) (place : Place) : Prop :=
  (Disk.delete path).run.run d = (.ok (), d.erase place) ∧ d.get? place ≠ none

/-- When a deletion takes something: the path has no zero byte and names a node that can be
unlinked. -/
theorem takes_iff :
    d.Takes path place ↔ 0 ∉ (Path.ofString path).bytes ∧
      ∃ folder name, Unlinks d (Path.ofString path) folder name ∧ place = folder ++ [name] := by
  rw [Takes, run_delete_eq]
  constructor
  · rintro ⟨hrun, hpresent⟩
    cases hrequest : request [Path.ofString path] (d.unlink (Path.ofString path)) with
    | error e =>
      rw [hrequest] at hrun
      exact absurd (erase_eq_self_iff.1 (congrArg Prod.snd hrun).symm) hpresent
    | ok d' =>
      rw [hrequest] at hrun
      obtain ⟨hzero, hunlink⟩ := request_eq_ok_iff.1 hrequest
      obtain ⟨folder, name, hunlinks, rfl⟩ := of_unlink_eq_ok hunlink
      refine ⟨hzero, folder, name, hunlinks, ?_⟩
      -- two places whose nodes go in the same change are the same place
      have hgone := congrArg (get? · place) (congrArg Prod.snd hrun)
      simp only [get?_erase, if_pos] at hgone
      by_contra hne
      rw [if_neg hne] at hgone
      exact hpresent hgone
  · rintro ⟨hzero, folder, name, hunlinks, rfl⟩
    rw [request_eq_ok_iff.2 ⟨hzero, hunlinks.unlink_eq⟩]
    exact ⟨rfl, hunlinks.present⟩

/-- A deletion takes one node, or it leaves the disk as it is and takes nothing. -/
theorem delete_cases (path : String) (d : Disk) :
    (∃ place, d.Takes path place) ∨
      (∀ place, ¬ d.Takes path place) ∧ ((Disk.delete path).run.run d).2 = d := by
  by_cases h : ∃ place, d.Takes path place
  · exact .inl h
  · refine .inr ⟨not_exists.1 h, ?_⟩
    rw [run_delete_eq]
    cases hrequest : request [Path.ofString path] (d.unlink (Path.ofString path)) with
    | error e => rfl
    | ok d' =>
      obtain ⟨hzero, hunlink⟩ := request_eq_ok_iff.1 hrequest
      obtain ⟨folder, name, hunlinks, rfl⟩ := of_unlink_eq_ok hunlink
      exact absurd ⟨_, takes_iff.2 ⟨hzero, folder, name, hunlinks, rfl⟩⟩ h

/-- A path takes one node at most. -/
theorem Takes.unique {other : Place} (h : d.Takes path place) (h' : d.Takes path other) :
    place = other := by
  obtain ⟨-, folder, name, hunlinks, rfl⟩ := takes_iff.1 h
  obtain ⟨-, folder', name', hunlinks', rfl⟩ := takes_iff.1 h'
  obtain ⟨rfl, rfl⟩ := hunlinks.toSlotAt.unique hunlinks'.toSlotAt
  rfl

/-! ## Deleting a file that is there -/

theorem accepts_of_ne_nil (h : p.bytes ≠ []) :
    accepts p = .ok () ∨ accepts p = .error .nameTooLong := by
  rw [accepts, if_neg (by simpa using h)]
  split
  · exact .inr rfl
  · exact .inl rfl

theorem unlink_of_accepts {e : Errno} (h : accepts p = .error e) : d.unlink p = .error e := by
  rw [unlink, slot, h]
  rfl

theorem SlotAt.bytes_ne_nil (h : d.SlotAt p folder name) : p.bytes ≠ [] := by
  intro hnil
  have hlast := h.last
  rw [Path.names, hnil] at hlast
  cases hlast

/-- Of the checks that an unlink makes, search comes first, before the name is looked up. -/
theorem SlotAt.unlink_of_searchable {e : Errno} (h : d.SlotAt p folder name)
    (haccepts : accepts p = .ok ()) (hsearchable : d.searchable folder = .error e) :
    d.unlink p = .error e := by
  rw [unlink, slot, haccepts]
  simp only [bind, Except.bind, h.last, h.route, hsearchable]

/-- Then the name is looked up, before the rights to write are checked. -/
theorem SlotAt.unlink_of_lookUp {e : Errno} (h : d.SlotAt p folder name) (hname : Path.IsName name)
    (haccepts : accepts p = .ok ()) (hsearchable : d.searchable folder = .ok ())
    (hlookUp : d.lookUp folder name = .error e) : d.unlink p = .error e := by
  rw [unlink, slot_eq haccepts h hsearchable hname.ne_here hname.ne_above]
  simp only [bind, Except.bind, hlookUp]

/-- The right to write comes last, and only where there is a file to unlink. -/
theorem SlotAt.unlink_of_writable {e : Errno} (h : d.SlotAt p folder name)
    (hname : Path.IsName name) (haccepts : accepts p = .ok ())
    (hsearchable : d.searchable folder = .ok ()) (hlimit : name.length ≤ nameLimit)
    (hfile : d.IsFile (folder ++ [name])) (hstrict : p.endsInSlash = false)
    (hwritable : d.writable folder = .error e) : d.unlink p = .error e := by
  obtain ⟨content, rights, hnode⟩ := isFile_iff.1 hfile
  rw [unlink, slot_eq haccepts h hsearchable hname.ne_here hname.ne_above]
  simp only [bind, Except.bind, lookUp_eq_ok_iff.2 ⟨hlimit, hnode⟩, hstrict, hwritable]
  rfl

/-- On a tree a file that is there is taken or refused: it is not missed. -/
theorem unlink_of_fileAt (htree : d.Tree) (h : d.FileAt p place) (hstrict : p.endsInSlash = false) :
    (∃ folder name, Unlinks d p folder name ∧ place = folder ++ [name]) ∨
      ∃ e, e ≠ .notFound ∧ d.unlink p = .error e := by
  obtain ⟨folder, name, hslot, rfl, hfile⟩ := h
  obtain ⟨node, hnode⟩ := Option.ne_none_iff_exists'.1 hfile.get?_ne_none
  obtain ⟨hname, hfolder⟩ := htree.inside_of_get? hnode
  -- each check on the way is passed, or it is the one that refuses
  rcases accepts_of_ne_nil hslot.bytes_ne_nil with haccepts | haccepts
  · rcases permits_of_isDirectory hfolder Rights.search with hsearchable | hsearchable
    · by_cases hlimit : name.length ≤ nameLimit
      · rcases permits_of_isDirectory hfolder Rights.write with hwritable | hwritable
        · exact .inl ⟨folder, name, ⟨hslot, haccepts, hsearchable,
            ⟨hname.ne_here, hname.ne_above, hlimit⟩, hfile.get?_ne_none, hfile.not_isDirectory,
            hstrict, hwritable⟩, rfl⟩
        · exact .inr ⟨.accessDenied, by decide, hslot.unlink_of_writable hname haccepts hsearchable
            hlimit hfile hstrict hwritable⟩
      · have hlookUp : d.lookUp folder name = .error .nameTooLong := by
          rw [lookUp, if_pos (Nat.not_le.1 hlimit)]
        exact .inr ⟨.nameTooLong, by decide,
          hslot.unlink_of_lookUp hname haccepts hsearchable hlookUp⟩
    · exact .inr ⟨.accessDenied, by decide, hslot.unlink_of_searchable haccepts hsearchable⟩
  · exact .inr ⟨.nameTooLong, by decide, unlink_of_accepts haccepts⟩

/-- On a tree the deletion of a file that is there takes it or fails. -/
theorem delete_of_fileAt (htree : d.Tree) (h : d.FileAt (Path.ofString path) place)
    (hstrict : (Path.ofString path).endsInSlash = false) :
    d.Takes path place ∨ ∃ e, (Disk.delete path).run.run d = (.error e, d) := by
  rw [run_delete_eq]
  by_cases hzero : (0 : UInt8) ∈ (Path.ofString path).bytes
  · refine .inr ⟨.zeroByte, ?_⟩
    simp [request, hzero, IoError.isNotFound, IoError.zeroByte]
  · rcases unlink_of_fileAt htree h hstrict with ⟨folder, name, hunlinks, rfl⟩ | ⟨e, hne, hunlink⟩
    · exact .inl (takes_iff.2 ⟨hzero, folder, name, hunlinks, rfl⟩)
    · refine .inr ⟨.os e, ?_⟩
      simp [request, hzero, hunlink, IoError.isNotFound, IoError.os, hne]

/-! ## Deletions after deletions -/

/-- What is taken later would have been taken at once. -/
theorem Takes.of_without (h : (d.without places).Takes path place) :
    place ∉ places ∧ d.Takes path place := by
  obtain ⟨hzero, folder, name, hunlinks, rfl⟩ := takes_iff.1 h
  obtain ⟨node, hnode⟩ := Option.ne_none_iff_exists'.1 hunlinks.present
  obtain ⟨hnotin, hnode'⟩ := get?_of_without hnode
  refine ⟨hnotin, takes_iff.2 ⟨hzero, folder, name, ⟨hunlinks.toSlotAt.of_without,
    hunlinks.accepted, permits_of_without hunlinks.searchable, hunlinks.looksUp,
    by simp [hnode'], ?_, hunlinks.notStrict, permits_of_without hunlinks.writable⟩, rfl⟩⟩
  intro hdirectory
  apply hunlinks.notDirectory
  rw [IsDirectory, kind?, hnode, ← hnode']
  exact hdirectory

/-- What would be taken at once is taken later, unless it is gone already. -/
theorem Takes.without (h : d.Takes path place) (hfiles : ∀ file ∈ places, d.IsFile file)
    (hplace : place ∉ places) : (d.without places).Takes path place := by
  obtain ⟨hzero, folder, name, hunlinks, rfl⟩ := takes_iff.1 h
  have hkept : (d.without places).get? (folder ++ [name]) = d.get? (folder ++ [name]) := by
    rw [get?_without, if_neg hplace]
  refine takes_iff.2 ⟨hzero, folder, name, ⟨hunlinks.toSlotAt.without hfiles, hunlinks.accepted,
    permits_without hfiles hunlinks.searchable, hunlinks.looksUp, ?_, ?_, hunlinks.notStrict,
    permits_without hfiles hunlinks.writable⟩, rfl⟩
  · rw [hkept]
    exact hunlinks.present
  · rw [IsDirectory, kind?, hkept]
    exact hunlinks.notDirectory

/-- What a run of deletions leaves, from a disk where files went before. By induction on the
deletions: those that succeed add a place each, every place is one that a tried path takes, and
where only files go none of them is left. -/
theorem exists_gone_of_deletions {keys tried : List String} {ended : Except IoError Unit}
    (h : Deletions Disk.delete keys (d.without places) tried ended d') :
    ∃ gone, d' = d.without (places ++ gone) ∧
      (∀ place ∈ gone, ∃ key ∈ tried, d.Takes key place) ∧
      ((∀ place ∈ places ++ gone, d.IsFile place) →
        ∀ key ∈ tried, ∀ place, d.Takes key place → place ∈ places ++ gone) := by
  -- on the deletions, where `places` is what is gone so far
  generalize hs : d.without places = s at h
  induction h generalizing places with
  | done =>
    subst hs
    exact ⟨[], by simp, by simp, by simp⟩
  | @failed path _ _ s' e hfail =>
    subst hs
    rcases delete_cases path (d.without places) with ⟨place, htakes⟩ | ⟨hnone, hsame⟩
    · rw [htakes.1] at hfail
      cases hfail
    · -- the one that failed took nothing, so it would have taken nothing at the start
      refine ⟨[], ?_, by simp, ?_⟩
      · rw [hfail] at hsame
        rw [List.append_nil]
        exact hsame
      · intro hfiles key hkey place htakes
        obtain rfl := List.mem_singleton.1 hkey
        rw [List.append_nil] at hfiles ⊢
        by_contra hplace
        exact hnone place (htakes.without hfiles hplace)
  | @went path _ _ _ s' _ _ hgone _ ih =>
    subst hs
    -- one that succeeded took a node, or what it was to take was not there
    rcases delete_cases path (d.without places) with ⟨taken, htaken⟩ | ⟨hnone, hsame⟩
    · rw [htaken.1, erase_without] at hgone
      obtain ⟨gone, hd', hby, hall⟩ := ih (congrArg Prod.snd hgone)
      refine ⟨taken :: gone, by simpa using hd', ?_, ?_⟩
      · intro place hplace
        rcases List.mem_cons.1 hplace with rfl | hplace
        · exact ⟨path, List.mem_cons_self, htaken.of_without.2⟩
        · obtain ⟨key, hkey, htakes⟩ := hby place hplace
          exact ⟨key, List.mem_cons_of_mem _ hkey, htakes⟩
      · intro hfiles key hkey place htakes
        rcases List.mem_cons.1 hkey with rfl | hkey
        · obtain rfl := htaken.of_without.2.unique htakes
          simp
        · have hplace := hall (by simpa using hfiles) key hkey place htakes
          simpa using hplace
    · rw [hgone] at hsame
      obtain ⟨gone, hd', hby, hall⟩ := ih hsame.symm
      refine ⟨gone, hd', ?_, ?_⟩
      · intro place hplace
        obtain ⟨key, hkey, htakes⟩ := hby place hplace
        exact ⟨key, List.mem_cons_of_mem _ hkey, htakes⟩
      · intro hfiles key hkey place htakes
        rcases List.mem_cons.1 hkey with rfl | hkey
        · by_contra hplace
          exact hnone place (htakes.without
            (fun file hfile => hfiles file (List.mem_append_left _ hfile))
            fun hmem => hplace (List.mem_append_left _ hmem))
        · exact hall hfiles key hkey place htakes

/-- What some deletions leave of a disk. All that is gone was taken by one of them; and if only
files are gone, each of them has got what it would have taken at the start. -/
def LeftBy (d : Disk) (tried : List String) (d' : Disk) : Prop :=
  ∃ gone, d' = d.without gone ∧ (∀ place ∈ gone, ∃ key ∈ tried, d.Takes key place) ∧
    ((∀ place ∈ gone, d.IsFile place) →
      ∀ key ∈ tried, ∀ place, d.Takes key place → place ∈ gone)

theorem leftBy_nil (d : Disk) : d.LeftBy [] d :=
  ⟨[], (without_nil d).symm, fun _ h => absurd h List.not_mem_nil,
    fun _ _ h => absurd h List.not_mem_nil⟩

/-- A run of deletions leaves the disk without what the paths that were tried would take on the disk
from which it starts. -/
theorem leftBy_of_deletions {keys tried : List String} {ended : Except IoError Unit}
    (h : Deletions Disk.delete keys d tried ended d') : d.LeftBy tried d' := by
  rw [← without_nil d] at h
  exact exists_gone_of_deletions h

end Baseline.Disk
