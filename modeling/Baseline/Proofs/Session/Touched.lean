import Baseline.Proofs.Session.Frame

/-!
# Touched files

A sweep should spare every file whose path is a line of the log. It compares keys, and a key keeps
`..`: where the scan root goes through `..`, each find below it has a key that no line of the log
has, for the test framework writes the real names from the top.

On a disk without links this is the only way for a touched file to go (`touched_kept_iff`). A key
without `..` leads straight down to the place that its parts name, so a key that takes a touched
file spells the very path in the log, and then it is no stray (`not_takes_of_touched`).
-/

namespace Baseline

namespace Disk

variable {d : Disk} {path : String} {folder place : Place} {name : Bytes}

theorem linkFree_of_nodes (h : ∀ pair ∈ d.nodes, pair.2.kind ≠ .link) : d.LinkFree :=
  fun _ _ hnode => h _ (mem_nodes_of_get? hnode) rfl

/-- Without links only files are taken. -/
theorem Takes.isFile (h : d.Takes path place) (hfree : d.LinkFree) : d.IsFile place := by
  obtain ⟨-, folder, name, hunlinks, rfl⟩ := takes_iff.1 h
  obtain ⟨node, hnode⟩ := Option.ne_none_iff_exists'.1 hunlinks.present
  cases node with
  | file content rights => exact isFile_iff.2 ⟨content, rights, hnode⟩
  | link target => exact absurd hnode (hfree _ target)
  | directory rights => exact absurd (isDirectory_iff.2 ⟨rights, hnode⟩) hunlinks.notDirectory

/-- Without links an absolute path that points in no direction has its slot where its names say. -/
theorem SlotAt.eq_names {p : Path} (h : d.SlotAt p folder name) (hfree : d.LinkFree)
    (habsolute : p.isAbsolute = true)
    (hnames : ∀ other ∈ p.names, other ≠ Path.here ∧ other ≠ Path.above) :
    folder ++ [name] = p.names := by
  obtain ⟨k, -, hroute⟩ := resolve_strict_iff.1 h.route
  have hfolder := hroute.eq_append hfree fun other hother =>
    hnames other (List.dropLast_subset p.names hother)
  rw [origin, if_pos habsolute, List.nil_append] at hfolder
  obtain ⟨front, hfront⟩ := List.getLast?_eq_some_iff.1 h.last
  rw [hfolder, hfront, List.dropLast_concat]

end Disk

namespace Session

variable {ι : Type} {s : Settings} {touched : List String} {line : String} {place : Place}

/-- A touched file is not taken by the deletion of a key that goes through no `..`. -/
theorem not_takes_of_touched {d : Disk} (hfree : d.LinkFree) {text : String}
    (hrooted : (Key.ofPath text).rooted = true)
    (habove : Path.above ∉ (Path.ofString (keyText text)).names)
    (hpath : Path.ofString line = Disk.pathOf place) (hunknown : keyText line ≠ keyText text) :
    ¬ d.Takes (keyText text) place := by
  intro htakes
  have hproper := Key.proper_ofPath text
  have hnames := Key.names_ofString_text hrooted hproper
  obtain ⟨-, folder, name, hunlinks, rfl⟩ := Disk.takes_iff.1 htakes
  -- without links and without `..` the parts of the key are the place
  have hplace : folder ++ [name] = (Key.ofPath text).parts.map Utf8.encode := by
    rw [← hnames]
    refine hunlinks.toSlotAt.eq_names hfree ?_ fun other hother => ⟨?_, ?_⟩
    · rw [keyText, Key.ofString_text hrooted, Path.isAbsolute_pathOf]
    · rw [keyText, hnames] at hother
      obtain ⟨part, hpart, rfl⟩ := List.mem_map.1 hother
      intro hhere
      exact (hproper part hpart).ne_dot (Utf8.encode_injective (hhere.trans (by decide)))
    · exact fun heq => habove (heq ▸ hother)
  -- the key spells the path in the log, and is the key of that line
  have hline : Path.ofString line = Path.ofString (keyText text) := by
    rw [hpath, hplace, keyText, Key.ofString_text hrooted]
  obtain rfl : line = keyText text := Utf8.encode_injective (congrArg Path.bytes hline)
  exact hunknown (keyText_keyText text)

variable (next : ExceptT IoError (StateM ι) String) (mode : Mode) (desk : Desk Disk ι)

/-- A touched file stays if it is not taken by a deletion that goes through `..`. -/
theorem touched_kept (htree : desk.store.Tree) (hfree : desk.store.LinkFree)
    (hlog : (readLog desk.store.still s.touchedLogPath).run = .ok touched) (hline : line ∈ touched)
    (hpath : Path.ofString line = Disk.pathOf place)
    (hnone : ∀ key ∈ (sweepOn next s mode (.start desk)).2.deletions,
      Path.above ∈ (Path.ofString key).names → ¬ desk.store.Takes key place) :
    (sweepOn next s mode (.start desk)).2.state.store.get? place = desk.store.get? place := by
  obtain ⟨gone, hgone, hby, -⟩ := sweepOn_leftBy next s mode desk
  rw [hgone, Disk.get?_without]
  refine if_neg fun hplace => ?_
  obtain ⟨key, hkey, htakes⟩ := hby place hplace
  by_cases habove : Path.above ∈ (Path.ofString key).names
  · exact hnone key hkey habove htakes
  · obtain ⟨touched', found, p, text, hsurvey, hp, htext, rfl, hunknown⟩ :=
      of_mem_deletions next s mode desk hkey
    obtain rfl : touched = touched' :=
      Except.ok.inj (hlog.symm.trans (Disk.of_survey hsurvey).1)
    have hrooted := rooted_ofPath (Utf8.encode_of_decode? htext)
      (Disk.spelling_of_survey htree hsurvey hp).1
    exact not_takes_of_touched hfree hrooted habove hpath (hunknown line hline) htakes

/-- A touched file goes if any deletion takes it at the start, on a disk without links. -/
theorem not_takes_of_kept (hfree : desk.store.LinkFree)
    (hsame : (sweepOn next s mode (.start desk)).2.state.store.get? place =
      desk.store.get? place) :
    ∀ key ∈ (sweepOn next s mode (.start desk)).2.deletions, ¬ desk.store.Takes key place := by
  intro key hkey htakes
  obtain ⟨gone, hgone, hby, hall⟩ := sweepOn_leftBy next s mode desk
  have hplace : place ∈ gone := by
    refine hall (fun other hother => ?_) key hkey place htakes
    obtain ⟨key', -, htakes'⟩ := hby other hother
    exact htakes'.isFile hfree
  rw [hgone, Disk.get?_without, if_pos hplace] at hsame
  exact htakes.2 hsame.symm

/-- Deletions go through `..` only if the scan root does, or for a find with a backslash. -/
theorem above_notMem_of_mem_deletions (htree : desk.store.Tree)
    (hroot : Path.above ∉ (rootOn desk.store s).names)
    (hplain : ∀ p ∈ desk.store.scanned s, backslash ∉ p.bytes) {key : String}
    (hkey : key ∈ (sweepOn next s mode (.start desk)).2.deletions) :
    Path.above ∉ (Path.ofString key).names := by
  intro habove
  obtain ⟨touched, found, p, text, hsurvey, hp, htext, rfl, -⟩ :=
    of_mem_deletions next s mode desk hkey
  have hscanned : desk.store.scanned s = found := by rw [Disk.scanned, hsurvey]
  rw [hscanned] at hplain
  rw [names_ofString_keyText (Utf8.encode_of_decode? htext)
    (Disk.spelling_of_survey htree hsurvey hp).1 (hplain p hp)] at habove
  rcases Disk.names_of_survey htree hsurvey hp (List.mem_filter.1 habove).1 with hmem | hname
  · exact hroot hmem
  · exact hname.ne_above rfl

/-- **A touched file stays** as it is exactly if it is not taken by a deletion that goes through
`..`; so it stays wherever neither the scan root goes through `..` nor a find holds a backslash. -/
theorem touched_kept_iff (htree : desk.store.Tree) (hfree : desk.store.LinkFree)
    (hlog : (readLog desk.store.still s.touchedLogPath).run = .ok touched) (hline : line ∈ touched)
    (hpath : Path.ofString line = Disk.pathOf place) :
    ((sweepOn next s mode (.start desk)).2.state.store.get? place = desk.store.get? place ↔
      ∀ key ∈ (sweepOn next s mode (.start desk)).2.deletions,
        Path.above ∈ (Path.ofString key).names → ¬ desk.store.Takes key place) ∧
    (Path.above ∉ (rootOn desk.store s).names →
      (∀ p ∈ desk.store.scanned s, backslash ∉ p.bytes) →
        (sweepOn next s mode (.start desk)).2.state.store.get? place =
          desk.store.get? place) := by
  have hkept := touched_kept next mode desk htree hfree hlog hline hpath
  refine ⟨⟨fun hsame key hkey _ => not_takes_of_kept next mode desk hfree hsame key hkey, hkept⟩,
    fun hroot hplain => hkept fun key hkey habove => ?_⟩
  exact absurd habove (above_notMem_of_mem_deletions next mode desk htree hroot hplain hkey)

set_option maxRecDepth 10000 in
/-- A sweep that deletes one baseline leaves the other, which the log knows, as it is. -/
theorem touched_kept_orderly :
    orderly.Tree ∧ orderly.LinkFree ∧
      (readLog orderly.still Settings.default.touchedLogPath).run = .ok ["/w/d/a.approved.txt"] ∧
      Path.ofString "/w/d/a.approved.txt" =
        Disk.pathOf (["w", "d", "a.approved.txt"].map Utf8.encode) ∧
      (sweepOn Script.next .default .prompt (.start ⟨orderly, ⟨["y"]⟩, none⟩)).2.deletions =
        ["/w/d/b.approved.txt"] ∧
      (sweepOn Script.next .default .prompt (.start ⟨orderly, ⟨["y"]⟩, none⟩)).2.state.store.get?
        (["w", "d", "a.approved.txt"].map Utf8.encode) =
        orderly.get? (["w", "d", "a.approved.txt"].map Utf8.encode) := by
  have htree : orderly.Tree := by decide +kernel
  have hfree : orderly.LinkFree := Disk.linkFree_of_nodes (by decide +kernel)
  have hlog : (readLog orderly.still Settings.default.touchedLogPath).run =
      .ok ["/w/d/a.approved.txt"] := rfl
  have hpath : Path.ofString "/w/d/a.approved.txt" =
      Disk.pathOf (["w", "d", "a.approved.txt"].map Utf8.encode) := by decide +kernel
  refine ⟨htree, hfree, hlog, hpath, by decide +kernel, ?_⟩
  exact (touched_kept_iff Script.next .prompt ⟨orderly, ⟨["y"]⟩, none⟩ htree hfree hlog
    (List.mem_singleton_self _) hpath).2 (by decide +kernel) (by decide +kernel)

/-- A disk with one baseline, which the log knows. -/
def roundabout : Disk :=
  .laidOut ["w"] [[], ["w"], ["w", "d"], ["w", ".approval_tests_temp"]]
    [(["w", "a.approved.txt"], "live"),
      (["w", ".approval_tests_temp", ".approved_files.log"], "/w/a.approved.txt\n")]

set_option maxRecDepth 10000 in
/-- A scan root that goes down and up again leads a sweep to delete the touched baseline. -/
theorem touched_gone_roundabout :
    roundabout.Tree ∧ roundabout.LinkFree ∧
      (readLog roundabout.still Settings.default.touchedLogPath).run = .ok ["/w/a.approved.txt"] ∧
      Path.ofString "/w/a.approved.txt" =
        Disk.pathOf (["w", "a.approved.txt"].map Utf8.encode) ∧
      roundabout.IsFile (["w", "a.approved.txt"].map Utf8.encode) ∧
      (sweepOn Script.next { Settings.default with scanRoot := some "d/.." } .delete
        (.start ⟨roundabout, ⟨[]⟩, none⟩)).2.state.store.get?
          (["w", "a.approved.txt"].map Utf8.encode) = none :=
  ⟨by decide +kernel, Disk.linkFree_of_nodes (by decide +kernel), rfl,
    by decide +kernel, by decide +kernel, by decide +kernel⟩

end Session

end Baseline
