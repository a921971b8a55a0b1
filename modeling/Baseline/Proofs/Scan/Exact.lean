import Baseline.Proofs.Scan.Reach
import Baseline.Proofs.Session.Survey

/-!
# Scans are exact

A scan on a desk that nothing but denials keep from what it comes to finds what is due and nothing
else, each file once and in the order of the names along the way, and it leaves remarks at most
(`run_exact`).

The names are compared one after the other. Compared as texts the paths can come out differently,
since a slash counts there like any other byte: `a-b` stands before `a/b`.
-/

namespace Baseline.Scan

variable {d : Disk} {r : ScanRules} {root : Path}

/-- What is due is called by names that path text can spell. -/
theorem Due.isPiece {names : List Bytes} (h : Due d r root names) (htree : d.Tree) :
    ∀ name ∈ names, Path.IsPiece name := by
  intro name hname
  obtain ⟨base, hpicks, -⟩ := h.picked
  have hpresent := hpicks.file.isFile.get?_ne_none
  exact (htree.isName_of_mem hpresent (List.mem_append_right base hname)).toIsPiece

/-- Different names lead to different paths. Names hold no slash, so the path can be cut into them
again. -/
theorem along_inj {names other : List Bytes} (hnames : ∀ name ∈ names, Path.IsPiece name)
    (hother : ∀ name ∈ other, Path.IsPiece name) (h : root.along names = root.along other) :
    names = other := by
  have hsame := congrArg Path.names h
  rw [Path.names_along root hnames, Path.names_along root hother] at hsame
  exact List.append_cancel_left hsame

/-- What is due is at different paths. -/
theorem nodup_paths (htree : d.Tree) {tails : List (List Bytes)} (hnodup : tails.Nodup)
    (hdue : ∀ names ∈ tails, Due d r root names) : (tails.map root.along).Nodup := by
  refine List.Nodup.map_on ?_ hnodup
  intro names hnames other hother heq
  exact along_inj ((hdue names hnames).isPiece htree) ((hdue other hother).isPiece htree) heq

section

variable {ι : Type} (next : ExceptT IoError (StateM ι) String) {t : Traced (Desk Disk ι)}
  {fitting : String} {ignored : List String} {pattern : Glob.Pattern}

/-- **Scans are exact.** On a tree, with a pattern for the names, and if nothing but denials keep
the scan from what it comes to: it succeeds, and what it finds is what is due, strictly in the order
of the names behind the root, with no path twice. The desk stays as it is. -/
theorem run_exact (htree : t.state.store.Tree) (hpattern : Glob.Pattern.parse fitting = .ok pattern)
    (hdenied : OnlyDenied t.state.store ⟨pattern, patterns ignored⟩ root) :
    ∃ (tails : List (List Bytes)) (remarks : List Event), Remarks remarks ∧
      (run Desk.diskView (Desk.diskOutside next).note root fitting ignored).run.run t =
        (.ok (tails.map root.along), ⟨t.state, t.events ++ remarks⟩) ∧
      (∀ names, names ∈ tails ↔ Due t.state.store ⟨pattern, patterns ignored⟩ root names) ∧
      tails.Pairwise (· < ·) ∧ (tails.map root.along).Nodup := by
  obtain ⟨found, hfound⟩ := (picked_ok_iff htree).2 hdenied
  obtain ⟨base, tails, rfl, hsorted, -, hdue⟩ := findsDue_of_picked htree hfound
  obtain ⟨remarks, hremarks, hrun⟩ := Mirrors.scan
    (Reads.note Disk.move Disk.delete next t.state.store) root fitting ignored t rfl
  rw [run_eq_picked hpattern, hfound] at hrun
  refine ⟨tails, remarks, hremarks, hrun, hdue, hsorted, ?_⟩
  exact nodup_paths htree (nodup_of_sorted hsorted) fun names hnames => (hdue names).1 hnames

/-- A folder with baselines, one that may not be opened, one that is ignored, and a link. -/
def mixed : Disk :=
  { ((Disk.laidOut ["w"] [[], ["w"], ["w", "a"], ["w", "b"], ["w", "old"]]
      [(["w", "a-b.approved.txt"], ""), (["w", "a", "c.approved.txt"], ""),
        (["w", "a", "c.received.txt"], ""), (["w", "b", "d.approved.txt"], ""),
        (["w", "old", "e.approved.txt"], "")]).insert
      (["w", "b"].map Utf8.encode) (.directory ⟨false, true, true⟩)).insert
      (["w", "l.approved.txt"].map Utf8.encode) (.link (.ofString "a-b.approved.txt")) with
    superuser := false }

/-- The folder `b` is denied and the folder `old` is ignored. What is in `a` comes first. -/
theorem run_exact_mixed :
    mixed.Tree ∧ ∃ pattern, Glob.Pattern.parse "*.approved.*" = .ok pattern ∧
      OnlyDenied mixed ⟨pattern, patterns ["**/old"]⟩ (.ofString "/w") ∧
      ((run Desk.diskView (Desk.diskOutside Script.next).note (.ofString "/w") "*.approved.*"
          ["**/old"]).run.run (.start ⟨mixed, ⟨[]⟩, none⟩)).1 =
        .ok [.ofString "/w/a/c.approved.txt", .ofString "/w/a-b.approved.txt"] ∧
      ∃ (tails : List (List Bytes)) (remarks : List Event), Remarks remarks ∧
        (run Desk.diskView (Desk.diskOutside Script.next).note (.ofString "/w") "*.approved.*"
            ["**/old"]).run.run (.start ⟨mixed, ⟨[]⟩, none⟩) =
          (.ok (tails.map (Path.along (.ofString "/w"))),
            ⟨⟨mixed, ⟨[]⟩, none⟩, [] ++ remarks⟩) ∧
        (∀ names, names ∈ tails ↔ Due mixed ⟨pattern, patterns ["**/old"]⟩ (.ofString "/w") names) ∧
        tails.Pairwise (· < ·) ∧ (tails.map (Path.along (.ofString "/w"))).Nodup := by
  have htree : mixed.Tree := by decide +kernel
  cases hpattern : Glob.Pattern.parse "*.approved.*" with
  | error e =>
    have hok : (Glob.Pattern.parse "*.approved.*").isOk = true := by decide +kernel
    rw [hpattern] at hok
    cases hok
  | ok pattern =>
    have hdenied : OnlyDenied mixed ⟨pattern, patterns ["**/old"]⟩ (.ofString "/w") := by
      have hfound : Id.run (run mixed.still silent (.ofString "/w") "*.approved.*" ["**/old"]).run =
          .ok [.ofString "/w/a/c.approved.txt", .ofString "/w/a-b.approved.txt"] := by
        decide +kernel
      rw [run_eq_picked hpattern] at hfound
      exact (picked_ok_iff htree).1 ⟨_, hfound⟩
    exact ⟨htree, pattern, rfl, hdenied, by decide +kernel,
      run_exact Script.next htree hpattern hdenied⟩

end

end Baseline.Scan
