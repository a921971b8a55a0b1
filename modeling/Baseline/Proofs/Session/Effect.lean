import Baseline.Proofs.Session.Frame
import Mathlib.Data.List.Forall2

/-!
# The exact effect of a sweep

Where neither the scan root nor a name below it holds a backslash, a sweep takes away the files of a
first part of the abandoned finds, in the order of the scan, and nothing else (`sweepOn_effect`).
`Ends` says how long that part is: nothing where the deletion is not allowed, everything where all
deletions succeed, and otherwise what comes before the first deletion that fails.

Different finds are different files (`places_of_survey`), files that go do not disturb those that
come later, and each file is still there when its turn comes, so its deletion takes it or fails
(`deletions_of_files`).
-/

namespace Baseline

namespace Disk

variable {d d' : Disk} {p : Path} {place : Place} {places gone : List Place} {text : String}

/-! ## Deleting files one after another -/

/-- A file stays at its path while others go. -/
theorem FileAt.without (h : d.FileAt p place) (hgone : ∀ file ∈ gone, d.IsFile file)
    (hplace : place ∉ gone) : (d.without gone).FileAt p place := by
  obtain ⟨folder, name, hslot, hat, hfile⟩ := h
  refine ⟨folder, name, hslot.without hgone, hat, ?_⟩
  rw [IsFile, kind?, get?_without, if_neg hplace]
  exact hfile

/-- One path leads to one file, so a list of paths to files is a list of files. -/
theorem FileAt.unique {other : Place} (h : d.FileAt p place) (h' : d.FileAt p other) :
    place = other := by
  obtain ⟨folder, name, hslot, rfl, -⟩ := h
  obtain ⟨folder', name', hslot', rfl, -⟩ := h'
  obtain ⟨rfl, rfl⟩ := hslot.unique hslot'
  rfl

theorem exists_path_of_mem {paths : List Path} (h : List.Forall₂ d.FileAt paths places)
    (hplace : place ∈ places) : ∃ p ∈ paths, d.FileAt p place := by
  induction h with
  | nil => exact absurd hplace List.not_mem_nil
  | @cons first _ _ _ hfile _ ih =>
    rcases List.mem_cons.1 hplace with rfl | hplace
    · exact ⟨first, List.mem_cons_self, hfile⟩
    · obtain ⟨p, hp, hfile⟩ := ih hplace
      exact ⟨p, List.mem_cons_of_mem _ hp, hfile⟩

theorem exists_place_of_mem {paths : List Path} (h : List.Forall₂ d.FileAt paths places)
    (hp : p ∈ paths) : ∃ place ∈ places, d.FileAt p place := by
  induction h with
  | nil => exact absurd hp List.not_mem_nil
  | @cons _ first _ _ hfile _ ih =>
    rcases List.mem_cons.1 hp with rfl | hp
    · exact ⟨first, List.mem_cons_self, hfile⟩
    · obtain ⟨place, hplace, hfile⟩ := ih hp
      exact ⟨place, List.mem_cons_of_mem _ hplace, hfile⟩

theorem isFile_of_mem {paths : List Path} (h : List.Forall₂ d.FileAt paths places)
    (hplace : place ∈ places) : d.IsFile place := by
  obtain ⟨p, -, hfile⟩ := exists_path_of_mem h hplace
  exact hfile.isFile

/-- Deletions of different files end with all of them gone, or with those gone that come before the
first one that fails. -/
theorem deletions_of_files (htree : d.Tree) {keys tried : List String}
    {ended : Except IoError Unit}
    (hfiles : List.Forall₂ (fun key place => d.FileAt (Path.ofString key) place ∧
      (Path.ofString key).endsInSlash = false) keys places)
    (hgone : ∀ file ∈ gone, d.IsFile file) (hnodup : (gone ++ places).Nodup)
    (h : Deletions Disk.delete keys (d.without gone) tried ended d') :
    ended = .ok () ∧ d' = d.without (gone ++ places) ∨
      ∃ n key e, keys[n]? = some key ∧ ended = .error e ∧
        d' = d.without (gone ++ places.take n) ∧
        (Disk.delete key).run.run (d.without (gone ++ places.take n)) =
          (.error e, d.without (gone ++ places.take n)) := by
  -- on the files, where `gone` are those in front of them
  induction hfiles generalizing gone tried with
  | nil =>
    cases h
    exact .inl ⟨rfl, by rw [List.append_nil]⟩
  | @cons key place keys places hfile _ ih =>
    obtain ⟨hfile, hstrict⟩ := hfile
    have hplace : place ∉ gone := fun hmem =>
      (List.nodup_append.1 hnodup).2.2 place hmem place List.mem_cons_self rfl
    rcases delete_of_fileAt (htree.without hgone) (hfile.without hgone hplace) hstrict with
      htakes | ⟨e, hfails⟩
    · -- the file goes, and the deletions behind it go on without it
      have hstep := htakes.1
      rw [erase_without] at hstep
      have hgone' : ∀ file ∈ gone ++ [place], d.IsFile file := by
        intro file hmem
        rcases List.mem_append.1 hmem with hmem | hmem
        · exact hgone file hmem
        · rw [List.mem_singleton.1 hmem]
          exact hfile.isFile
      have hnodup' : ((gone ++ [place]) ++ places).Nodup := by
        rwa [List.append_assoc, List.singleton_append]
      cases h with
      | failed hfails =>
        rw [hstep] at hfails
        cases hfails
      | went hwent rest =>
        rw [hstep] at hwent
        obtain rfl := congrArg Prod.snd hwent
        rcases ih hgone' hnodup' rest with ⟨hok, hd'⟩ | ⟨n, key', e, hkey, herr, hd', hfails⟩
        · exact .inl ⟨hok, by rw [hd', List.append_assoc, List.singleton_append]⟩
        · rw [List.append_assoc, List.singleton_append] at hd' hfails
          exact .inr ⟨n + 1, key', e, hkey, herr, hd', hfails⟩
    · have hnone : gone ++ (place :: places).take 0 = gone := List.append_nil gone
      cases h with
      | failed hfails' =>
        rw [hfails] at hfails'
        obtain ⟨herr, rfl⟩ := Prod.mk.inj hfails'
        refine .inr ⟨0, key, e, rfl, by rw [Except.error.inj herr], ?_, ?_⟩
        · rw [hnone]
        · rw [hnone]
          exact hfails
      | went hwent =>
        rw [hfails] at hwent
        cases hwent

/-- As many nodes are gone as places are given up, if each of them held something. -/
theorem length_nodes_without (htree : d.Tree) (hnodup : places.Nodup)
    (hpresent : ∀ place ∈ places, d.get? place ≠ none) :
    (d.without places).nodes.length + places.length = d.nodes.length := by
  -- the nodes that go have the places, each of them once
  have hperm : ((d.nodes.filter (·.1 ∈ places)).map Prod.fst).Perm places := by
    refine (List.perm_ext_iff_of_nodup ?_ hnodup).2 fun place => ⟨fun hmem => ?_, fun hmem => ?_⟩
    · exact htree.nodup.sublist (List.Sublist.map _ List.filter_sublist)
    · obtain ⟨pair, hpair, rfl⟩ := List.mem_map.1 hmem
      simpa using (List.mem_filter.1 hpair).2
    · obtain ⟨node, hnode⟩ := Option.ne_none_iff_exists'.1 (hpresent place hmem)
      exact List.mem_map.2 ⟨(place, node),
        List.mem_filter.2 ⟨mem_nodes_of_get? hnode, by simpa using hmem⟩, rfl⟩
  have hlength := hperm.length_eq
  have hsplit := List.length_eq_length_filter_add (l := d.nodes) (·.1 ∈ places)
  rw [List.length_map] at hlength
  simp only [without, decide_not]
  omega

/-! ## Roots without a backslash -/

/-- Neither a path holds a backslash, nor a name below the place to which it leads. -/
def PlainBelow (d : Disk) (root : Path) : Prop :=
  backslash ∉ root.bytes ∧ ∀ base names, d.locate true root = .ok base →
    d.get? (base ++ names) ≠ none → ∀ name ∈ names, backslash ∉ name

theorem plainBelow_of_nodes (hroot : backslash ∉ p.bytes)
    (h : ∀ pair ∈ d.nodes, ∀ name ∈ pair.1, backslash ∉ name) : d.PlainBelow p := by
  refine ⟨hroot, fun base names _ hpresent name hname => ?_⟩
  obtain ⟨node, hnode⟩ := Option.ne_none_iff_exists'.1 hpresent
  exact h _ (mem_nodes_of_get? hnode) name (List.mem_append_right base hname)

variable {s : Settings} {touched : List String} {found : List Path}

/-- Where no name in the tree has a backslash, no path that is found has one. Such paths are their
own keys up to slashes, so the deletions reach what was found. -/
theorem plain_of_survey (htree : d.Tree) (hplain : d.PlainBelow (Session.rootOn d s))
    (hsurvey : d.survey s = .ok (touched, found)) (hp : p ∈ found) : backslash ∉ p.bytes := by
  obtain ⟨pattern, base, -, tails, rfl, -, hpicks⟩ := finds_of_survey htree hsurvey
  obtain ⟨names, hnames, rfl⟩ := List.mem_map.1 hp
  have hpick := hpicks names hnames
  intro hmem
  rcases Path.mem_bytes_along hmem with hroot | hslash | ⟨name, hname, hbackslash⟩
  · exact hplain.1 hroot
  · exact absurd hslash (by decide)
  · have hlocated := hpick.located fun hnil => absurd hname (hnil ▸ List.not_mem_nil)
    exact hplain.2 base names hlocated hpick.file.isFile.get?_ne_none name hname hbackslash

end Disk

namespace Session

variable {d : Disk} {p : Path} {place : Place} {s : Settings} {touched : List String}
  {found : List Path}

/-! ## The abandoned finds -/

/-- The key of a path that is text. -/
def keyOf (p : Path) : String := keyText (p.text?.getD "")

/-- The finds that are text, and whose key is not the key of a touched line. -/
def abandoned (touched : List String) (found : List Path) : List Path :=
  found.filter fun p => p.text?.isSome && !(touched.map keyText).contains (keyOf p)

/-- Whether strays are told by keys or found files by their keys, the same are left: filtering and
taking keys can change places. -/
theorem keys_filter (known : String → Bool) (found : List Path) :
    ((found.filterMap Path.text?).map keyText).filter (fun key => !known key) =
      (found.filter fun p => p.text?.isSome && !known (keyOf p)).map keyOf := by
  induction found with
  | nil => rfl
  | cons p found ih =>
    rw [List.filterMap_cons]
    cases htext : p.text? with
    | none =>
      rw [List.filter_cons_of_neg (by simp [htext])]
      exact ih
    | some text =>
      have hkey : keyOf p = keyText text := by rw [keyOf, htext, Option.getD_some]
      cases hknown : known (keyText text) with
      | true =>
        rw [List.map_cons, List.filter_cons_of_neg (by simp [hknown]),
          List.filter_cons_of_neg (by simp [hkey, hknown])]
        exact ih
      | false =>
        rw [List.map_cons, List.filter_cons_of_pos (by simp [hknown]),
          List.filter_cons_of_pos (by simp [htext, hkey, hknown]), List.map_cons, hkey]
        exact congrArg (keyText text :: ·) ih

/-- The strays of a sweep are the keys of the abandoned finds. -/
theorem strays_eq_keys (touched : List String) (found : List Path) :
    strays touched (found.filterMap Path.text?) = (abandoned touched found).map keyOf :=
  keys_filter (touched.map keyText).contains found

/-- Every find is a file of its own. Different finds are at different places, since the paths differ
in their names and the walk follows no links. -/
theorem places_of_survey (htree : d.Tree) (hsurvey : d.survey s = .ok (touched, found)) :
    ∃ places, List.Forall₂ d.FileAt (abandoned touched found) places ∧ places.Nodup := by
  obtain ⟨pattern, base, -, tails, rfl, hnodup, hpicks⟩ := Disk.finds_of_survey htree hsurvey
  refine ⟨(tails.filter ((fun p => p.text?.isSome && !(touched.map keyText).contains (keyOf p)) ∘
    (rootOn d s).along)).map (base ++ ·), ?_, ?_⟩
  · rw [abandoned, List.filter_map, List.forall₂_map_left_iff, List.forall₂_map_right_iff,
      List.forall₂_same]
    exact fun names hnames => (hpicks names (List.mem_filter.1 hnames).1).file
  · exact (hnodup.filter _).map (List.append_right_injective base)

/-- The deletion of the key of an abandoned find reaches the find. -/
theorem fileAt_keyOf (htree : d.Tree) (hplain : d.PlainBelow (rootOn d s))
    (hsurvey : d.survey s = .ok (touched, found)) (hp : p ∈ abandoned touched found)
    (hfile : d.FileAt p place) :
    d.FileAt (Path.ofString (keyOf p)) place ∧ (Path.ofString (keyOf p)).endsInSlash = false := by
  obtain ⟨hfound, habandoned⟩ := List.mem_filter.1 hp
  obtain ⟨text, htext⟩ := Option.isSome_iff_exists.1 (Bool.and_eq_true_iff.1 habandoned).1
  obtain ⟨habsolute, hhere⟩ := Disk.spelling_of_survey htree hsurvey hfound
  have hbytes := Disk.plain_of_survey htree hplain hsurvey hfound
  have hkey : keyOf p = keyText text := by rw [keyOf, htext, Option.getD_some]
  obtain ⟨folder, name, hslot, hplace, hisFile⟩ := hfile
  have hslot' := (Disk.slotAt_keyText htext habsolute hhere hbytes).2 hslot
  have hrooted := rooted_ofPath (Utf8.encode_of_decode? htext) habsolute
  have hproper := Key.proper_ofPath text
  rw [hkey]
  refine ⟨⟨folder, name, hslot', hplace, hisFile⟩, ?_⟩
  have hne : (Key.ofPath text).parts.map Utf8.encode ≠ [] := by
    intro hnil
    have hlast := hslot'.last
    rw [keyText, Key.names_ofString_text hrooted hproper, hnil] at hlast
    cases hlast
  rw [keyText, Key.ofString_text hrooted]
  exact Path.endsInSlash_pathOf hne fun _ => hproper.isPiece_encode

/-! ## The whole sweep -/

/-- How many lines a sweep writes before it deletes: the listing, and the question if it prompts. -/
def linesBefore (mode : Mode) (keys : List String) : Nat :=
  (listing keys).length + if mode = .prompt then 1 else 0

section

variable {ι : Type}

/-- `Ends next mode keys places desk n result`: the sweep of some keys, whose files are at some
places, takes away the first `n` of the files and ends with the result. -/
inductive Ends (next : ExceptT IoError (StateM ι) String) (mode : Mode) (keys : List String)
    (places : List Place) (desk : Desk Disk ι) : Nat → Except Error Sweep → Prop where
  /-- the deletion is not allowed -/
  | spared {result : Except Error Sweep} (not_allowed : ¬ Sweep.Allowed next mode keys desk)
      (none_deleted : ∀ sweep, result = .ok sweep → sweep = ⟨keys, 0⟩) :
      Ends next mode keys places desk 0 result
  /-- all is deleted, and the closing lines are written -/
  | swept (allowed : Sweep.Allowed next mode keys desk)
      (fits : Fits desk.room (linesBefore mode keys + (Sweep.deletedLines keys.length).length)) :
      Ends next mode keys places desk keys.length (.ok ⟨keys, keys.length⟩)
  /-- all is deleted, and the output does not take the closing lines -/
  | unclosed (allowed : Sweep.Allowed next mode keys desk)
      (cut : ¬ Fits desk.room (linesBefore mode keys + (Sweep.deletedLines keys.length).length)) :
      Ends next mode keys places desk keys.length (.error (.io .outputClosed))
  /-- a deletion fails -/
  | refused {n : Nat} {key : String} {e : IoError} (allowed : Sweep.Allowed next mode keys desk)
      (at_key : keys[n]? = some key)
      (fails : (Disk.delete key).run.run (desk.store.without (places.take n)) =
        (.error e, desk.store.without (places.take n))) :
      Ends next mode keys places desk n (.error (.io e))

variable {next : ExceptT IoError (StateM ι) String} {mode : Mode} {keys : List String}
  {places : List Place} {desk after : Desk Disk ι} {c : Sweep.Course}
  {result : Except Error Sweep}

/-- Where the deletion is allowed, the lines before it are written. -/
theorem fits_linesBefore (h : Sweep.Allowed next mode keys desk) :
    Fits desk.room (linesBefore mode keys) := by
  obtain ⟨-, hlist, hdelete | ⟨hasks, -⟩⟩ := h
  · rw [linesBefore, hdelete]
    exact hlist
  · rw [linesBefore, if_pos hasks.1]
    exact hasks.2.2

/-- Where the deletion is allowed, the lines behind it come into what those before it leave. -/
theorem roomLeft_of_allowed (h : Sweep.Allowed next mode keys desk)
    (haccounts : c.Accounts Disk.delete next mode keys desk result after) :
    c.roomLeft keys desk.room = roomAfter desk.room (linesBefore mode keys) := by
  have hasks : c.asks = true ↔ mode = .prompt := by
    rw [haccounts.asks]
    refine ⟨fun hasks => hasks.1, fun hprompt => ?_⟩
    obtain ⟨-, -, hdelete | ⟨hasks, -⟩⟩ := h
    · exact nomatch hprompt.symm.trans hdelete
    · exact hasks
  rw [Sweep.Course.roomLeft, linesBefore]
  by_cases hprompt : mode = .prompt
  · rw [if_pos hprompt, if_pos (hasks.2 hprompt)]
  · rw [if_neg hprompt, if_neg fun htrue => hprompt (hasks.1 htrue)]

/-- A sweep that may not delete has nothing to say of deleted files. -/
theorem none_deleted_of_not_allowed (h : ¬ Sweep.Allowed next mode keys desk)
    (haccounts : c.Accounts Disk.delete next mode keys desk result after) (sweep : Sweep)
    (hok : result = .ok sweep) : sweep = ⟨keys, 0⟩ := by
  rcases Sweep.allowed_or_spared_or next mode keys desk with
    hallowed | hspared | hcut | ⟨hasks, e, he⟩
  · exact absurd hallowed h
  · have hresult := (haccounts.spares hspared).2
    rw [hok] at hresult
    split at hresult
    · exact Except.ok.inj hresult
    · cases hresult
  · rw [(haccounts.cutShort hcut).2] at hok
    cases hok
  · rw [(haccounts.unanswered hasks e he).2] at hok
    cases hok

/-- A course that sweeps different files takes a first part of them away. -/
theorem ends_of_accounts (htree : desk.store.Tree)
    (hfiles : List.Forall₂ (fun key place => desk.store.FileAt (Path.ofString key) place ∧
      (Path.ofString key).endsInSlash = false) keys places)
    (hnodup : places.Nodup)
    (haccounts : c.Accounts Disk.delete next mode keys desk result after) :
    ∃ n, after.store = desk.store.without (places.take n) ∧
      Ends next mode keys places desk n result := by
  by_cases hallowed : Sweep.Allowed next mode keys desk
  · -- nothing is gone when the deletions start
    obtain ⟨ended, hdeletions, hdone, hfailed⟩ := haccounts.deletes hallowed
    rw [← Disk.without_nil desk.store] at hdeletions
    have hnone : ∀ file ∈ ([] : List Place), desk.store.IsFile file :=
      fun _ hfile => absurd hfile List.not_mem_nil
    rcases Disk.deletions_of_files htree hfiles hnone hnodup hdeletions with
      ⟨rfl, hstore⟩ | ⟨n, key, e, hkey, rfl, hstore, hfails⟩
    · refine ⟨keys.length, ?_, ?_⟩
      · rw [hfiles.length_eq, List.take_length]
        exact hstore
      · obtain ⟨-, hresult⟩ := hdone rfl
        rw [roomLeft_of_allowed hallowed haccounts] at hresult
        rw [hresult]
        split
        · next hfits => exact .swept hallowed (fits_add.2 ⟨fits_linesBefore hallowed, hfits⟩)
        · next hcut => exact .unclosed hallowed fun hfits => hcut (fits_add.1 hfits).2
    · rw [(hfailed e rfl).2]
      exact ⟨n, hstore, .refused hallowed hkey hfails⟩
  · refine ⟨0, ?_, .spared hallowed (none_deleted_of_not_allowed hallowed haccounts)⟩
    rw [List.take_zero, Disk.without_nil]
    exact (haccounts.untouched hallowed).2

/-- A sweep that succeeds gives the number of the files that it takes away. -/
theorem Ends.deleted_eq {n : Nat} (h : Ends next mode keys places desk n result) {sweep : Sweep}
    (hok : result = .ok sweep) : sweep.deleted = n := by
  cases h with
  | spared _ hnone => rw [hnone sweep hok]
  | swept => rw [← Except.ok.inj hok]
  | unclosed => cases hok
  | refused => cases hok

/-- No more is taken away than there is. The prefix that is taken away is one of the strays. -/
theorem Ends.le_length {n : Nat} (h : Ends next mode keys places desk n result) :
    n ≤ keys.length := by
  cases h with
  | spared => exact Nat.zero_le _
  | swept => exact Nat.le_refl _
  | unclosed => exact Nat.le_refl _
  | refused _ hkey =>
    obtain ⟨hlt, -⟩ := List.getElem?_eq_some_iff.1 hkey
    exact Nat.le_of_lt hlt

end

section

variable {ι : Type} (next : ExceptT IoError (StateM ι) String) (s : Settings) (mode : Mode)
  (desk : Desk Disk ι)

/-- A sweep whose survey succeeds takes away the files of a first part of the abandoned finds. -/
theorem ends_of_survey {s : Settings} {desk : Desk Disk ι} (htree : desk.store.Tree)
    (hplain : desk.store.PlainBelow (rootOn desk.store s))
    (hsurvey : desk.store.survey s = .ok (touched, found)) :
    ∃ places n, List.Forall₂ desk.store.FileAt (abandoned touched found) places ∧
      places.Nodup ∧
      (sweepOn next s mode (.start desk)).2.state.store = desk.store.without (places.take n) ∧
      Ends next mode ((abandoned touched found).map keyOf) places desk n
        (sweepOn next s mode (.start desk)).1 := by
  obtain ⟨places, hplaces, hnodup⟩ := places_of_survey htree hsurvey
  obtain ⟨c, haccounts, -⟩ := sweepOn_of_survey next mode hsurvey
  rw [strays_eq_keys] at haccounts
  -- the keys that are deleted lead to the places of the finds
  have hfiles : List.Forall₂ (fun key place => desk.store.FileAt (Path.ofString key) place ∧
      (Path.ofString key).endsInSlash = false) ((abandoned touched found).map keyOf) places := by
    obtain ⟨hlength, hzip⟩ := List.forall₂_iff_zip.1 hplaces
    rw [List.forall₂_map_left_iff]
    exact List.forall₂_iff_zip.2 ⟨hlength, fun hpair =>
      fileAt_keyOf htree hplain hsurvey (List.of_mem_zip hpair).1 (hzip hpair)⟩
  obtain ⟨n, hstore, hends⟩ := ends_of_accounts htree hfiles hnodup haccounts
  exact ⟨places, n, hplaces, hnodup, hstore, hends⟩

/-- **The exact effect of a sweep.** Where no backslash is about, a sweep whose survey fails leaves
the disk as it is. Any other takes away the files of a first part of the abandoned finds, which are
different files, and leaves everything else as it is; `Ends` says how long the part is and what the
sweep gives, and the number it gives is the number of nodes that are gone. -/
theorem sweepOn_effect (htree : desk.store.Tree)
    (hplain : desk.store.PlainBelow (rootOn desk.store s)) :
    (∀ e, desk.store.survey s = .error e →
      (sweepOn next s mode (.start desk)).1 = .error e ∧
        (sweepOn next s mode (.start desk)).2.state.store = desk.store) ∧
    ∀ touched found, desk.store.survey s = .ok (touched, found) →
      ∃ places n, List.Forall₂ desk.store.FileAt (abandoned touched found) places ∧
        places.Nodup ∧
        (sweepOn next s mode (.start desk)).2.state.store =
          desk.store.without (places.take n) ∧
        Ends next mode ((abandoned touched found).map keyOf) places desk n
          (sweepOn next s mode (.start desk)).1 ∧
        ∀ sweep, (sweepOn next s mode (.start desk)).1 = .ok sweep →
          (sweepOn next s mode (.start desk)).2.state.store.nodes.length + sweep.deleted =
            desk.store.nodes.length := by
  refine ⟨fun e herror => ?_, fun touched found hsurvey => ?_⟩
  · obtain ⟨hresult, hstate, -⟩ := sweepOn_of_survey_error next mode herror
    exact ⟨hresult, congrArg Desk.store hstate⟩
  · obtain ⟨places, n, hplaces, hnodup, hstore, hends⟩ := ends_of_survey next mode htree hplain
      hsurvey
    refine ⟨places, n, hplaces, hnodup, hstore, hends, fun sweep hok => ?_⟩
    have hpresent : ∀ place ∈ places.take n, desk.store.get? place ≠ none := fun place hplace =>
      (Disk.isFile_of_mem hplaces (List.mem_of_mem_take hplace)).get?_ne_none
    have hlength := Disk.length_nodes_without htree (hnodup.sublist (List.take_sublist n places))
      hpresent
    have hle : n ≤ places.length := by
      have hle := hends.le_length
      rwa [List.length_map, hplaces.length_eq] at hle
    rw [List.length_take, Nat.min_eq_left hle] at hlength
    rw [hstore, hends.deleted_eq hok]
    exact hlength

/-- Two abandoned baselines, the second in a folder that grants no changes. -/
def guarded : Disk :=
  { (Disk.laidOut ["w"] [[], ["w"], ["w", "a"], ["w", ".approval_tests_temp"]]
      [(["w", "a", "x.approved.txt"], "x"), (["w", "b", "y.approved.txt"], "y"),
        (["w", ".approval_tests_temp", ".approved_files.log"], "")]).insert
      (["w", "b"].map Utf8.encode) (.directory ⟨true, false, true⟩) with superuser := false }

/-- What the scan finds there. -/
def guardedFinds : List Path := [.ofString "/w/a/x.approved.txt", .ofString "/w/b/y.approved.txt"]

set_option maxRecDepth 10000 in
/-- The first of them is taken away, and the second one ends the sweep. -/
theorem sweepOn_effect_guarded :
    guarded.Tree ∧ guarded.PlainBelow (rootOn guarded .default) ∧
      guarded.survey .default = .ok ([], guardedFinds) ∧
      (sweepOn Script.next .default .delete (.start ⟨guarded, ⟨[]⟩, none⟩)).2.state.store =
        guarded.without [["w", "a", "x.approved.txt"].map Utf8.encode] ∧
      ∃ places n, List.Forall₂ guarded.FileAt (abandoned [] guardedFinds) places ∧
        places.Nodup ∧
        (sweepOn Script.next .default .delete (.start ⟨guarded, ⟨[]⟩, none⟩)).2.state.store =
          guarded.without (places.take n) ∧
        Ends Script.next .delete ((abandoned [] guardedFinds).map keyOf) places
          ⟨guarded, ⟨[]⟩, none⟩ n
          (sweepOn Script.next .default .delete (.start ⟨guarded, ⟨[]⟩, none⟩)).1 ∧
        ∀ sweep,
          (sweepOn Script.next .default .delete (.start ⟨guarded, ⟨[]⟩, none⟩)).1 = .ok sweep →
            (sweepOn Script.next .default .delete
              (.start ⟨guarded, ⟨[]⟩, none⟩)).2.state.store.nodes.length + sweep.deleted =
              guarded.nodes.length := by
  have htree : guarded.Tree := by decide +kernel
  have hplain : guarded.PlainBelow (rootOn guarded .default) :=
    Disk.plainBelow_of_nodes (by decide +kernel) (by decide +kernel)
  have hsurvey : guarded.survey .default = .ok ([], guardedFinds) := by decide +kernel
  exact ⟨htree, hplain, hsurvey, by decide +kernel,
    (sweepOn_effect Script.next .default .delete ⟨guarded, ⟨[]⟩, none⟩ htree hplain).2 _ _
      hsurvey⟩

end

end Session

end Baseline
