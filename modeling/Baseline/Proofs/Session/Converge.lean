import Baseline.Proofs.Scan.Left
import Baseline.Proofs.Session.Effect
import Baseline.Proofs.Session.Preview

/-!
# Sweeps converge

A sweep that may delete and succeeds leaves nothing for the sweeps behind it. What it takes away are
regular files, so the log is read and the disk is scanned again as before, and the scan finds none
but the files that were no strays the first time (`lists_nothing`). From there on no sweep changes
anything, so this goes on however many of them follow (`findsNothing_of_mem_sweepAll`).

Two files must not be among the strays: the log itself, and the scan root where that is a file.
Where the root is swept away there is nothing left to scan, and the next sweep fails
(`not_converges_root`).
-/

namespace Baseline.Session

variable {ι : Type} {s : Settings} {d : Disk} {places : List Place} {touched : List String}
  {found : List Path}

/-! ## Reading again after files are gone -/

/-- A log that is not among the files that are gone reads as before. -/
theorem readLog_without {p : Path} (hfiles : ∀ file ∈ places, d.IsFile file)
    (h : (readLog d.still p).run = .ok touched)
    (hkept : ∀ place, d.locate true p = .ok place → place ∉ places) :
    (readLog (d.without places).still p).run = .ok touched := by
  have hsame (v w : View Id) (hcontent : (v.content p).run = (w.content p).run) :
      readLog v p = readLog w p := by rw [readLog, readLog, hcontent]
  cases hread : (d.still.content p).run with
  | error e =>
    obtain ⟨answer, hanswer, h⟩ := run_bind_eq_ok_iff.1 h
    obtain rfl : (d.still.content p).run = answer := Except.ok.inj hanswer
    rw [hread] at h
    cases h
  | ok content =>
    obtain ⟨hzero, hfile⟩ := Disk.request_eq_ok_iff.1 hread
    have hagain : ((d.without places).still.content p).run = .ok content :=
      Disk.request_eq_ok_iff.2 ⟨hzero, Disk.readFile_without hfiles hfile hkept⟩
    rwa [hsame _ _ (hagain.trans hread.symm)]

/-- A survey that succeeds is a walk with a pattern that parses; the second survey walks by the same
rules. -/
theorem picked_of_survey (hsurvey : d.survey s = .ok (touched, found)) :
    ∃ pattern, Glob.Pattern.parse s.baselineName = .ok pattern ∧
      (Scan.picked d.still Scan.silent (s.rules pattern) (rootOn d s)).run = .ok found := by
  have hscan := (Disk.of_survey hsurvey).2
  cases hpattern : Glob.Pattern.parse s.baselineName with
  | error e =>
    rw [Scan.run, hpattern] at hscan
    cases hscan
  | ok pattern =>
    rw [Scan.run_eq_picked hpattern] at hscan
    exact ⟨pattern, rfl, hscan⟩

/-- A root from which something else than the root itself is found can be opened. -/
theorem opens_of_abandoned (htree : d.Tree) (hsurvey : d.survey s = .ok (touched, found))
    (hroot : rootOn d s ∉ abandoned touched found) (hne : abandoned touched found ≠ []) :
    Scan.Opens d (rootOn d s) := by
  obtain ⟨pattern, -, hpicked⟩ := picked_of_survey hsurvey
  obtain ⟨-, tails, rfl, -, -, hdue⟩ := Scan.findsDue_of_picked htree hpicked
  obtain ⟨p, hp⟩ := List.exists_mem_of_ne_nil _ hne
  obtain ⟨names, hnames, rfl⟩ := List.mem_map.1 (List.mem_filter.1 hp).1
  refine ((hdue names).1 hnames).opens ?_
  rintro rfl
  exact hroot hp

/-- The second survey reads the same log, and finds nothing new and nothing that is gone. -/
theorem survey_without (htree : d.Tree) (hsurvey : d.survey s = .ok (touched, found))
    (hfiles : ∀ file ∈ places, d.IsFile file)
    (hkept : ∀ place, d.locate true s.touchedLogPath = .ok place → place ∉ places)
    (hopens : Scan.Opens d (rootOn d s)) :
    ∃ left, (d.without places).survey s = .ok (touched, left) ∧
      ∀ p ∈ left, p ∈ found ∧ ∃ place, d.FileAt p place ∧ place ∉ places := by
  obtain ⟨lines, hlines, h⟩ := run_bind_eq_ok_iff.1 hsurvey
  obtain ⟨root, hroot, h⟩ := run_bind_eq_ok_iff.1 h
  obtain ⟨paths, -, h⟩ := run_bind_eq_ok_iff.1 h
  obtain rfl : lines = touched := (Prod.mk.inj (Except.ok.inj h)).1
  obtain ⟨pattern, hpattern, hpicked⟩ := picked_of_survey hsurvey
  obtain ⟨left, hleft, hfrom⟩ := Scan.picked_without hfiles htree hopens hpicked
  rw [Settings.rules, ← Scan.run_eq_picked hpattern] at hleft
  -- the root is seen from the same directory
  have hroot' : (scanRoot (d.without places).still s).run = .ok (rootOn d s) := by
    rw [scanRoot] at hroot ⊢
    split at hroot
    · cases hroot
    · next hnonempty =>
      rw [if_neg hnonempty]
      rfl
  exact ⟨left, run_bind_eq_ok_iff.2 ⟨lines, readLog_without hfiles hlines hkept,
    run_bind_eq_ok_iff.2 ⟨_, hroot', run_bind_eq_ok_iff.2 ⟨left, hleft, rfl⟩⟩⟩, hfrom⟩

/-- Behind the strays of a survey the next survey finds none. -/
theorem lists_nothing (htree : d.Tree) (hsurvey : d.survey s = .ok (touched, found))
    (hplaces : List.Forall₂ d.FileAt (abandoned touched found) places)
    (hlog : ∀ place, d.locate true s.touchedLogPath = .ok place →
      ∀ p ∈ abandoned touched found, ¬ d.FileAt p place)
    (hroot : rootOn d s ∉ abandoned touched found) : Lists s (d.without places) [] := by
  by_cases hnone : abandoned touched found = []
  · -- nothing is gone
    rw [hnone] at hplaces
    cases hplaces
    rw [Disk.without_nil]
    exact ⟨touched, found, hsurvey, by rw [strays_eq_keys, hnone]; rfl⟩
  · have hfiles : ∀ file ∈ places, d.IsFile file := fun _ => Disk.isFile_of_mem hplaces
    have hkept : ∀ place, d.locate true s.touchedLogPath = .ok place → place ∉ places := by
      intro place hlocate hmem
      obtain ⟨p, hp, hfile⟩ := Disk.exists_path_of_mem hplaces hmem
      exact hlog place hlocate p hp hfile
    obtain ⟨left, hleft, hfrom⟩ := survey_without htree hsurvey hfiles hkept
      (opens_of_abandoned htree hsurvey hroot hnone)
    refine ⟨touched, left, hleft, ?_⟩
    -- a stray that is left would have been a stray before, and would be gone
    have hnothing : abandoned touched left = [] := by
      refine List.filter_eq_nil_iff.2 fun p hp hstray => ?_
      obtain ⟨hfound, place, hfile, hplace⟩ := hfrom p hp
      obtain ⟨other, hother, hfile'⟩ := Disk.exists_place_of_mem hplaces
        (List.mem_filter.2 ⟨hfound, hstray⟩)
      exact hplace (hfile.unique hfile' ▸ hother)
    rw [strays_eq_keys, hnothing]
    rfl

/-! ## One sweep after another -/

section

variable (next : ExceptT IoError (StateM ι) String) {mode : Mode} {desk : Desk Disk ι}
  {answers : ι}

/-- A sweep may delete: the mode asks for no consent, or the answer agrees. -/
def MayDelete (mode : Mode) (answers : ι) : Prop :=
  mode = .delete ∨
    mode = .prompt ∧ ∃ answer ∈ Sweep.agreeing, (next.run.run answers).1 = .ok answer

/-- The sweep of a disk finds nothing: it says so, reads no answer and changes nothing. -/
structure FindsNothing (d : Disk) (run : Except Error Sweep × Traced (Desk Disk ι)) : Prop where
  /-- there is no stray, and nothing is deleted -/
  result : run.1 = .ok ⟨[], 0⟩
  /-- the lines say so -/
  lines : run.2.lines = ["No unused `.approved.` files found.", "", "No files were deleted."]
  /-- no answer is read -/
  unasked : run.2.timesAsked = 0
  /-- the disk is as it was -/
  store : run.2.state.store = d

/-- Sweeps one after another, each of the disk that the one before it has left. -/
def sweepAll (s : Settings) :
    Disk → List (Mode × ι) → List (Except Error Sweep × Traced (Desk Disk ι))
  | _, [] => []
  | d, (mode, answers) :: calls =>
    let run := sweepFrom next s d mode answers
    run :: sweepAll s run.2.state.store calls

variable {next}

/-- A sweep that may delete and has something to delete is allowed to, unless its output closes. -/
theorem allowed_or_cutShort {keys : List String} (hmay : MayDelete next mode desk.answers)
    (hkeys : keys ≠ []) :
    Sweep.Allowed next mode keys desk ∨ Sweep.CutShort mode keys desk.room := by
  by_cases hlist : Fits desk.room (listing keys).length
  · rcases hmay with rfl | ⟨rfl, answer, hagrees, hanswer⟩
    · exact .inl ⟨hkeys, hlist, .inl rfl⟩
    · by_cases hquestion : Fits desk.room ((listing keys).length + 1)
      · exact .inl ⟨hkeys, hlist, .inr ⟨⟨rfl, hkeys, hquestion⟩, answer, hagrees, hanswer⟩⟩
      · exact .inr (.inr ⟨rfl, hkeys, hquestion⟩)
  · exact .inr (.inl hlist)

/-- A sweep that may delete and succeeds takes all that is abandoned away. -/
theorem store_of_swept (htree : desk.store.Tree)
    (hplain : desk.store.PlainBelow (rootOn desk.store s))
    (hsurvey : desk.store.survey s = .ok (touched, found))
    (hmay : MayDelete next mode desk.answers) {sweep : Sweep}
    (hok : (sweepOn next s mode (.start desk)).1 = .ok sweep) :
    ∃ places, List.Forall₂ desk.store.FileAt (abandoned touched found) places ∧
      (sweepOn next s mode (.start desk)).2.state.store = desk.store.without places := by
  obtain ⟨places, n, hplaces, -, hstore, hends⟩ := ends_of_survey next mode htree hplain hsurvey
  have hlength := hplaces.length_eq
  have hcount : n = places.length := by
    rw [hok] at hends
    generalize hkeys : (abandoned touched found).map keyOf = keys at hends
    have hkeysLength : keys.length = places.length := by rw [← hkeys, List.length_map, hlength]
    cases hends with
    | spared hnot _ =>
      -- nothing was allowed, so there was nothing to allow
      by_contra hne
      have hsome : keys ≠ [] := by
        rintro rfl
        exact hne (by simpa using hkeysLength)
      rcases allowed_or_cutShort hmay hsome with hallowed | hcut
      · exact hnot hallowed
      · obtain ⟨c, haccounts, -⟩ := sweepOn_of_survey next mode hsurvey
        rw [strays_eq_keys, hkeys] at haccounts
        cases hok.symm.trans (haccounts.cutShort hcut).2
    | swept => exact hkeysLength
  refine ⟨places, hplaces, ?_⟩
  rw [hstore, hcount, List.take_length]

/-- A sweep of an empty list asks nothing, deletes nothing and says so in three lines, in every mode
and whatever the input is. -/
theorem findsNothing_of_lists (h : Lists s d []) (mode : Mode) (answers : ι) :
    FindsNothing d (sweepFrom next s d mode answers) where
  result := (keeps_nothing next h mode answers).result
  lines := by
    rw [(keeps_nothing next h mode answers).lines, questionOf_nil]
    rfl
  unasked := (unasked next h mode answers).1
  store := (keeps_nothing next h mode answers).store

/-- Where nothing is found, nothing is found however often one looks. -/
theorem findsNothing_of_mem_sweepAll (h : Lists s d []) (calls : List (Mode × ι)) :
    ∀ run ∈ sweepAll next s d calls, FindsNothing d run := by
  induction calls with
  | nil => exact fun run hrun => absurd hrun List.not_mem_nil
  | cons call calls ih =>
    obtain ⟨mode, answers⟩ := call
    have hfirst : FindsNothing d (sweepFrom next s d mode answers) :=
      findsNothing_of_lists h mode answers
    rw [sweepAll]
    intro run hrun
    rcases List.mem_cons.1 hrun with rfl | hrun
    · exact hfirst
    · rw [hfirst.store] at hrun
      exact ih run hrun

/-- **Sweeps converge.** Where no backslash is about, a sweep that may delete and succeeds leaves
nothing to the sweeps behind it, as many as there are and whatever their modes and answers: none of
them finds anything, reads an answer or changes the disk. The log must not be among the strays, and
the scan root must not be one of them itself. -/
theorem sweepOn_converges (htree : desk.store.Tree)
    (hplain : desk.store.PlainBelow (rootOn desk.store s))
    (hmay : MayDelete next mode desk.answers)
    (hsurvey : desk.store.survey s = .ok (touched, found))
    (hlog : ∀ place, desk.store.locate true s.touchedLogPath = .ok place →
      ∀ p ∈ abandoned touched found, ¬ desk.store.FileAt p place)
    (hroot : rootOn desk.store s ∉ abandoned touched found) {sweep : Sweep}
    (hok : (sweepOn next s mode (.start desk)).1 = .ok sweep) (calls : List (Mode × ι)) :
    ∀ run ∈ sweepAll next s (sweepOn next s mode (.start desk)).2.state.store calls,
      FindsNothing (sweepOn next s mode (.start desk)).2.state.store run := by
  obtain ⟨places, hplaces, hstore⟩ := store_of_swept htree hplain hsurvey hmay hok
  rw [hstore]
  exact findsNothing_of_mem_sweepAll
    (lists_nothing htree hsurvey hplaces hlog hroot) calls

/-- A touched baseline and an abandoned one. -/
def halfTouched : Disk :=
  .laidOut ["w"] [[], ["w"], ["w", "a"], ["w", "b"], ["w", ".approval_tests_temp"]]
    [(["w", "a", "x.approved.txt"], "touched"), (["w", "b", "y.approved.txt"], "abandoned"),
      (["w", ".approval_tests_temp", ".approved_files.log"], "/w/a/x.approved.txt\n")]

/-- What the scan finds there. -/
def halfTouchedFinds : List Path :=
  [.ofString "/w/a/x.approved.txt", .ofString "/w/b/y.approved.txt"]

/-- Sweeps of every mode. -/
def laterSweeps : List (Mode × Script) := [(.delete, ⟨[]⟩), (.prompt, ⟨["y"]⟩), (.dryRun, ⟨[]⟩)]

theorem not_fileAt_of_last {p : Path} {folder : Place} {name : Bytes}
    (h : p.names.getLast? ≠ some name) : ¬ d.FileAt p (folder ++ [name]) := by
  rintro ⟨folder', name', hslot, heq, -⟩
  obtain ⟨-, hname⟩ := List.append_inj' heq rfl
  rw [List.singleton_inj.1 hname] at h
  exact h hslot.last

set_option maxRecDepth 10000 in
/-- The one that is abandoned goes at once, and there is nothing to find afterwards. -/
theorem sweepOn_converges_halfTouched :
    halfTouched.Tree ∧ halfTouched.PlainBelow (rootOn halfTouched .default) ∧
      MayDelete Script.next .prompt ⟨["y"]⟩ ∧
      halfTouched.survey .default = .ok (["/w/a/x.approved.txt"], halfTouchedFinds) ∧
      (∀ place, halfTouched.locate true Settings.default.touchedLogPath = .ok place →
        ∀ p ∈ abandoned ["/w/a/x.approved.txt"] halfTouchedFinds, ¬ halfTouched.FileAt p place) ∧
      rootOn halfTouched .default ∉ abandoned ["/w/a/x.approved.txt"] halfTouchedFinds ∧
      (sweepOn Script.next .default .prompt (.start ⟨halfTouched, ⟨["y"]⟩, none⟩)).1 =
        .ok ⟨["/w/b/y.approved.txt"], 1⟩ ∧
      ∀ run ∈ sweepAll Script.next .default (sweepOn Script.next .default .prompt
          (.start ⟨halfTouched, ⟨["y"]⟩, none⟩)).2.state.store laterSweeps,
        FindsNothing (sweepOn Script.next .default .prompt
          (.start ⟨halfTouched, ⟨["y"]⟩, none⟩)).2.state.store run := by
  have htree : halfTouched.Tree := by decide +kernel
  have hplain : halfTouched.PlainBelow (rootOn halfTouched .default) :=
    Disk.plainBelow_of_nodes (by decide +kernel) (by decide +kernel)
  have hmay : MayDelete Script.next .prompt (⟨["y"]⟩ : Script) :=
    .inr ⟨rfl, "y", by decide, rfl⟩
  have hsurvey : halfTouched.survey .default =
      .ok (["/w/a/x.approved.txt"], halfTouchedFinds) := by decide +kernel
  have habandoned : abandoned ["/w/a/x.approved.txt"] halfTouchedFinds =
      [.ofString "/w/b/y.approved.txt"] := by decide +kernel
  have hlocate : halfTouched.locate true Settings.default.touchedLogPath =
      .ok (["w", ".approval_tests_temp"].map Utf8.encode ++
        [Utf8.encode ".approved_files.log"]) := by
    decide +kernel
  have hlog : ∀ place, halfTouched.locate true Settings.default.touchedLogPath = .ok place →
      ∀ p ∈ abandoned ["/w/a/x.approved.txt"] halfTouchedFinds, ¬ halfTouched.FileAt p place := by
    intro place hplace p hp
    rw [← Except.ok.inj (hlocate.symm.trans hplace)]
    rw [habandoned] at hp
    rw [List.mem_singleton.1 hp]
    exact not_fileAt_of_last (by decide +kernel)
  have hroot : rootOn halfTouched .default ∉
      abandoned ["/w/a/x.approved.txt"] halfTouchedFinds := by decide +kernel
  have hok : (sweepOn Script.next .default .prompt (.start ⟨halfTouched, ⟨["y"]⟩, none⟩)).1 =
      .ok ⟨["/w/b/y.approved.txt"], 1⟩ := by decide +kernel
  have hall := @sweepOn_converges Script .default _ _ Script.next .prompt
    ⟨halfTouched, ⟨["y"]⟩, none⟩ htree hplain hmay hsurvey hlog hroot _ hok laterSweeps
  exact ⟨htree, hplain, hmay, hsurvey, hlog, hroot, hok, hall⟩

/-- An abandoned baseline that is to be the scan root. -/
def rootFile : Disk :=
  .laidOut ["w"] [[], ["w"], ["w", ".approval_tests_temp"]]
    [(["w", "a.approved.txt"], ""), (["w", ".approval_tests_temp", ".approved_files.log"], "")]

/-- Settings with that root. -/
def rootSettings : Settings := { Settings.default with scanRoot := some "a.approved.txt" }

set_option maxRecDepth 10000 in
/-- The root is swept away, and the next sweep fails for want of it. -/
theorem not_converges_root :
    rootFile.Tree ∧ rootFile.PlainBelow (rootOn rootFile rootSettings) ∧
      MayDelete Script.next .delete (⟨[]⟩ : Script) ∧
      rootFile.survey rootSettings = .ok ([], [.ofString "/w/a.approved.txt"]) ∧
      (∀ place, rootFile.locate true rootSettings.touchedLogPath = .ok place →
        ∀ p ∈ abandoned [] [.ofString "/w/a.approved.txt"], ¬ rootFile.FileAt p place) ∧
      (sweepOn Script.next rootSettings .delete (.start ⟨rootFile, ⟨[]⟩, none⟩)).1 =
        .ok ⟨["/w/a.approved.txt"], 1⟩ ∧
      ¬ ∀ run ∈ sweepAll Script.next rootSettings (sweepOn Script.next rootSettings .delete
          (.start ⟨rootFile, ⟨[]⟩, none⟩)).2.state.store [(.delete, ⟨[]⟩)],
        FindsNothing (sweepOn Script.next rootSettings .delete
          (.start ⟨rootFile, ⟨[]⟩, none⟩)).2.state.store run := by
  have hlocate : rootFile.locate true rootSettings.touchedLogPath =
      .ok (["w", ".approval_tests_temp"].map Utf8.encode ++
        [Utf8.encode ".approved_files.log"]) := by
    decide +kernel
  refine ⟨by decide +kernel, Disk.plainBelow_of_nodes (by decide +kernel) (by decide +kernel),
    .inl rfl, by decide +kernel, fun place hplace p hp => ?_, by decide +kernel, fun hall => ?_⟩
  · rw [← Except.ok.inj (hlocate.symm.trans hplace),
      List.mem_singleton.1 (List.mem_filter.1 hp).1]
    exact not_fileAt_of_last (by decide +kernel)
  · have hnext := (hall _ List.mem_cons_self).result
    exact absurd hnext (by decide +kernel)

end

end Baseline.Session
