import Baseline.Proofs.Key.Normal
import Baseline.Proofs.Session.Survey

/-!
# What a sweep may change

A sweep changes a disk by its deletions and by nothing else, and what they take can be read off the
disk from which the sweep starts (`sweepOn_leftBy`).

What is deleted should be what was found. A deletion is handed the key of a find, though, and not
its path. Where no find holds a backslash the two lead to the same place, and nothing else is
touched; a backslash in a name becomes a slash in the key, and the deletion may take a node that was
never found (`sweepOn_keepsTo`).
-/

namespace Baseline

namespace Disk

variable {d : Disk} {p : Path} {folder : Place} {name : Bytes} {text : String}

/-! ## The key of a path on the disk -/

/-- Without a backslash a path has the slot of its key. -/
theorem slotAt_keyText (htext : p.text? = some text) (habsolute : p.isAbsolute = true)
    (hhere : Path.here ∉ p.names) (hplain : backslash ∉ p.bytes) :
    d.SlotAt (Path.ofString (keyText text)) folder name ↔ d.SlotAt p folder name := by
  have hbytes := Utf8.encode_of_decode? htext
  have hnames : (Path.ofString (keyText text)).names = p.names := by
    rw [names_ofString_keyText hbytes habsolute hplain, List.filter_eq_self]
    exact fun other hother => bne_iff_ne.2 fun heq => hhere (heq ▸ hother)
  have horigin : d.origin (Path.ofString (keyText text)) = d.origin p := by
    rw [origin, origin, keyText, Key.ofString_text (rooted_ofPath hbytes habsolute),
      Path.isAbsolute_pathOf, habsolute]
  constructor
  · rintro ⟨hlast, hroute⟩
    rw [hnames] at hlast hroute
    rw [horigin] at hroute
    exact ⟨hlast, hroute⟩
  · rintro ⟨hlast, hroute⟩
    rw [← hnames] at hlast hroute
    rw [← horigin] at hroute
    exact ⟨hlast, hroute⟩

/-! ## Changes that keep to some paths -/

/-- Every node that is not as it was is gone, and was a regular file at one of the paths. -/
def KeepsTo (d d' : Disk) (paths : List Path) : Prop :=
  ∀ place, d'.get? place ≠ d.get? place →
    d'.get? place = none ∧ ∃ p ∈ paths, d.FileAt p place

/-- The deletion of a path takes something that is not at any of some other paths. -/
def Astray (d : Disk) (paths : List Path) (path : String) : Prop :=
  ∃ place, d.Takes path place ∧ ∀ p ∈ paths, ¬ d.FileAt p place

variable {d' : Disk} {tried : List String} {paths : List Path}

/-- Deletions keep to some paths exactly if none of them goes astray at the start. -/
theorem LeftBy.keepsTo_iff (h : d.LeftBy tried d') :
    d.KeepsTo d' paths ↔ ∀ key ∈ tried, ¬ d.Astray paths key := by
  obtain ⟨gone, rfl, hby, hall⟩ := h
  have hchanged {place : Place} (hplace : place ∈ gone) :
      (d.without gone).get? place ≠ d.get? place := by
    obtain ⟨key, -, htakes⟩ := hby place hplace
    rw [get?_without, if_pos hplace]
    exact htakes.2.symm
  constructor
  · rintro hkeeps key hkey ⟨place, htakes, hnot⟩
    -- only files are gone, so what a deletion takes at the start is gone in the end
    have hfiles : ∀ place ∈ gone, d.IsFile place := fun place hplace => by
      obtain ⟨-, p, -, hfile⟩ := hkeeps place (hchanged hplace)
      exact hfile.isFile
    obtain ⟨-, p, hp, hfile⟩ := hkeeps place (hchanged (hall hfiles key hkey place htakes))
    exact hnot p hp hfile
  · intro hnone place hplace
    have hgone : place ∈ gone := by
      by_contra hkept
      rw [get?_without, if_neg hkept] at hplace
      exact hplace rfl
    refine ⟨by rw [get?_without, if_pos hgone], ?_⟩
    obtain ⟨key, hkey, htakes⟩ := hby place hgone
    by_contra hnot
    exact hnone key hkey ⟨place, htakes, fun p hp hfile => hnot ⟨p, hp, hfile⟩⟩

/-- The files that the scan of a sweep finds: none, where the survey fails. -/
def scanned (d : Disk) (s : Settings) : List Path :=
  match d.survey s with
  | .ok (_, found) => found
  | .error _ => []

end Disk

namespace Session

variable {ι : Type} (next : ExceptT IoError (StateM ι) String) (s : Settings) (mode : Mode)
  (desk : Desk Disk ι)

/-- A sweep takes away what its deletions would have taken at the start, and changes nothing
else. -/
theorem sweepOn_leftBy :
    desk.store.LeftBy (sweepOn next s mode (.start desk)).2.deletions
      (sweepOn next s mode (.start desk)).2.state.store := by
  cases hsurvey : desk.store.survey s with
  | error e =>
    obtain ⟨-, hstate, hnone⟩ := sweepOn_of_survey_error next mode hsurvey
    rw [hnone, hstate]
    exact Disk.leftBy_nil desk.store
  | ok found =>
    obtain ⟨c, haccounts, htried⟩ := sweepOn_of_survey next mode hsurvey
    rw [htried]
    by_cases hallowed : Sweep.Allowed next mode
        (strays found.1 (found.2.filterMap Path.text?)) desk
    · obtain ⟨ended, hdeletions, -, -⟩ := haccounts.deletes hallowed
      exact Disk.leftBy_of_deletions hdeletions
    · obtain ⟨hnone, hstore⟩ := haccounts.untouched hallowed
      rw [hnone, hstore]
      exact Disk.leftBy_nil desk.store

/-- A sweep tries to delete keys of finds only, and none that the log gives a find. -/
theorem of_mem_deletions {key : String}
    (h : key ∈ (sweepOn next s mode (.start desk)).2.deletions) :
    ∃ touched found p text, desk.store.survey s = .ok (touched, found) ∧ p ∈ found ∧
      p.text? = some text ∧ key = keyText text ∧ ∀ line ∈ touched, keyText line ≠ key := by
  cases hsurvey : desk.store.survey s with
  | error e =>
    rw [(sweepOn_of_survey_error next mode hsurvey).2.2] at h
    exact absurd h List.not_mem_nil
  | ok found =>
    obtain ⟨c, haccounts, htried⟩ := sweepOn_of_survey next mode hsurvey
    rw [htried] at h
    obtain ⟨hkey, hnot⟩ := List.mem_filter.1 (haccounts.tried_prefix.subset h)
    obtain ⟨text, htext, rfl⟩ := List.mem_map.1 hkey
    obtain ⟨p, hp, htext⟩ := List.mem_filterMap.1 htext
    refine ⟨found.1, found.2, p, text, rfl, hp, htext, rfl, fun line hline heq => ?_⟩
    simp only [Bool.not_eq_true', List.contains_eq_mem, decide_eq_false_iff_not] at hnot
    exact hnot (heq ▸ List.mem_map_of_mem hline)

/-- A path that a scan with some settings picks: it goes on from the scan root, its name fits, and
no ignore pattern leaves it out. -/
def IsBaseline (d : Disk) (s : Settings) (p : Path) : Prop :=
  ∃ pattern base names, Glob.Pattern.parse s.baselineName = .ok pattern ∧
    p = (rootOn d s).along names ∧ Scan.Picks d (s.rules pattern) (rootOn d s) base names

theorem isBaseline_of_mem_scanned (htree : desk.store.Tree) {p : Path}
    (hp : p ∈ desk.store.scanned s) : IsBaseline desk.store s p := by
  rw [Disk.scanned] at hp
  split at hp
  · next touched found hsurvey =>
    obtain ⟨pattern, base, hpattern, tails, rfl, -, hpicks⟩ := Disk.finds_of_survey htree hsurvey
    obtain ⟨names, hnames, rfl⟩ := List.mem_map.1 hp
    exact ⟨pattern, base, names, hpattern, rfl, hpicks names hnames⟩
  · exact absurd hp List.not_mem_nil

/-- Without a backslash in a find, what the deletion of its key takes is the find itself. -/
theorem fileAt_of_takes {d : Disk} (htree : d.Tree) {touched : List String} {found : List Path}
    (hsurvey : d.survey s = .ok (touched, found)) {p : Path} (hp : p ∈ found) {text : String}
    (htext : p.text? = some text) (hplain : backslash ∉ p.bytes) {place : Place}
    (htakes : d.Takes (keyText text) place) : d.FileAt p place := by
  obtain ⟨habsolute, hhere⟩ := Disk.spelling_of_survey htree hsurvey hp
  obtain ⟨pattern, base, -, tails, rfl, -, hpicks⟩ := Disk.finds_of_survey htree hsurvey
  obtain ⟨names, hnames, rfl⟩ := List.mem_map.1 hp
  obtain ⟨folder, name, hslot, hplace, hfile⟩ := (hpicks names hnames).file
  obtain ⟨-, folder', name', hunlinks, rfl⟩ := Disk.takes_iff.1 htakes
  have hslot' := (Disk.slotAt_keyText htext habsolute hhere hplain).1 hunlinks.toSlotAt
  obtain ⟨rfl, rfl⟩ := hslot.unique hslot'
  rw [hplace] at hfile
  exact ⟨folder, name, hslot, rfl, hfile⟩

/-- **A sweep keeps to what it found** exactly if no deletion that it tries goes astray, and a
deletion goes astray only for a find with a backslash in its path. -/
theorem sweepOn_keepsTo (htree : desk.store.Tree) :
    (∀ p ∈ desk.store.scanned s, IsBaseline desk.store s p) ∧
      (desk.store.KeepsTo (sweepOn next s mode (.start desk)).2.state.store
          (desk.store.scanned s) ↔
        ∀ key ∈ (sweepOn next s mode (.start desk)).2.deletions,
          ¬ desk.store.Astray (desk.store.scanned s) key) ∧
      ∀ key ∈ (sweepOn next s mode (.start desk)).2.deletions,
        desk.store.Astray (desk.store.scanned s) key →
          ∃ p ∈ desk.store.scanned s, ∃ text, p.text? = some text ∧ keyText text = key ∧
            backslash ∈ p.bytes := by
  refine ⟨fun p => isBaseline_of_mem_scanned s desk htree,
    (sweepOn_leftBy next s mode desk).keepsTo_iff, ?_⟩
  rintro key hkey ⟨place, htakes, hnot⟩
  -- the key belongs to a find, and it would take that find if there were no backslash in it
  obtain ⟨touched, found, p, text, hsurvey, hp, htext, rfl, -⟩ :=
    of_mem_deletions next s mode desk hkey
  have hscanned : desk.store.scanned s = found := by rw [Disk.scanned, hsurvey]
  rw [hscanned] at hnot ⊢
  refine ⟨p, hp, text, htext, rfl, ?_⟩
  by_contra hplain
  exact hnot p hp (fileAt_of_takes s htree hsurvey hp htext hplain htakes)

/-- A folder with two baselines, one of which the log knows. -/
def orderly : Disk :=
  .laidOut ["w"] [[], ["w"], ["w", "d"], ["w", ".approval_tests_temp"]]
    [(["w", "d", "a.approved.txt"], "touched"), (["w", "d", "b.approved.txt"], "abandoned"),
      (["w", ".approval_tests_temp", ".approved_files.log"], "/w/d/a.approved.txt\n")]

set_option maxRecDepth 10000 in
/-- Where no name holds a backslash, a sweep deletes and keeps to what it found. -/
theorem keepsTo_orderly :
    orderly.Tree ∧
      (sweepOn Script.next .default .prompt (.start ⟨orderly, ⟨["y"]⟩, none⟩)).2.state.store.get?
        (["w", "d", "b.approved.txt"].map Utf8.encode) = none ∧
      orderly.KeepsTo
        (sweepOn Script.next .default .prompt (.start ⟨orderly, ⟨["y"]⟩, none⟩)).2.state.store
        (orderly.scanned .default) := by
  have htree : orderly.Tree := by decide +kernel
  have hplain : ∀ p ∈ orderly.scanned .default, backslash ∉ p.bytes := by decide +kernel
  obtain ⟨-, hiff, hastray⟩ :=
    sweepOn_keepsTo Script.next .default .prompt ⟨orderly, ⟨["y"]⟩, none⟩ htree
  refine ⟨htree, by decide +kernel, hiff.2 fun key hkey hbad => ?_⟩
  obtain ⟨p, hp, -, -, -, hbackslash⟩ := hastray key hkey hbad
  exact hplain p hp hbackslash

/-- A disk with a baseline whose name holds a backslash, and a file at what its key spells. -/
def respelled : Disk :=
  .laidOut ["w"] [[], ["w"], ["w", "a.approved.x"], ["w", ".approval_tests_temp"]]
    [(["w", "a.approved.x\\b"], "found"), (["w", "a.approved.x", "b"], "not found"),
      (["w", ".approval_tests_temp", ".approved_files.log"], "")]

set_option maxRecDepth 10000 in
/-- The sweep finds the baseline with the backslash in its name, and deletes the other file. -/
theorem not_keepsTo_respelled :
    ¬ respelled.KeepsTo
      (sweepOn Script.next .default .delete (.start ⟨respelled, ⟨[]⟩, none⟩)).2.state.store
      (respelled.scanned .default) := by
  intro hkeeps
  have hscanned : respelled.scanned .default = [.ofString "/w/a.approved.x\\b"] := by
    decide +kernel
  obtain ⟨-, p, hp, folder, name, hslot, hplace, -⟩ :=
    hkeeps (["w", "a.approved.x", "b"].map Utf8.encode) (by decide +kernel)
  obtain rfl := List.mem_singleton.1 (hscanned ▸ hp)
  -- the last name of the find is not the last name of what is gone
  have hlast : (Path.ofString "/w/a.approved.x\\b").names.getLast? =
      some (Utf8.encode "a.approved.x\\b") := by decide +kernel
  obtain rfl : name = Utf8.encode "a.approved.x\\b" :=
    Option.some.inj (hslot.last.symm.trans hlast)
  have hend := congrArg List.getLast? hplace
  rw [List.getLast?_concat] at hend
  exact absurd hend (by decide +kernel)

end Session

end Baseline
