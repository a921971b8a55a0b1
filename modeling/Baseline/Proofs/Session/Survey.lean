import Baseline.Proofs.Scan.Found
import Baseline.Proofs.Sweep.Course
import Baseline.Session

/-!
# The survey of a sweep

Before a sweep writes its first line it reads: the log of the touched files, and the disk from the
scan root on. `Disk.survey` is what it learns, as a function of the disk alone, and
`sweepOn_of_survey` says that the sweep goes on from there: with an error of the survey it ends and
leaves notes at most, and otherwise the rest is `Sweep.run` on what the survey found.
-/

namespace Baseline

namespace Session

/-! ## A survey apart from what follows it -/

/-- What a sweep learns before it writes anything: the lines of the touched log, and the files that
the scan finds. -/
def survey {m : Type → Type} [Monad m] (v : View m) (note : Note → m Unit) (s : Settings) :
    ExceptT Error m (List String × List Path) := do
  let touched ← readLog v s.touchedLogPath
  let root ← scanRoot v s
  let found ← Scan.run v note root s.baselineName s.ignored
  return (touched, found)

/-- A sweep is a survey and then what `Sweep.run` makes of it. All that is proved of sweeps takes
the two apart here. -/
theorem sweep_eq {m : Type → Type} [Monad m] [LawfulMonad m] (v : View m) (o : Outside m)
    (s : Settings) (mode : Mode) :
    sweep v o s mode = (do
      let (touched, found) ← survey v o.note s
      let onDisk ← ExceptT.lift (textPaths o.note found)
      Sweep.run o mode touched onDisk) := by
  simp [sweep, survey]

/-- The scan root of the settings on a disk, as it is handed to the scan. -/
def rootOn (d : Disk) (s : Settings) : Path :=
  Path.absolute (Disk.pathOf d.cwd) s.scanRootPath

end Session

/-- The rules of a scan with some settings, where the name of a baseline is to fit a pattern. -/
def Settings.rules (s : Settings) (pattern : Glob.Pattern) : ScanRules :=
  ⟨pattern, Scan.patterns s.ignored⟩

/-- What a sweep learns from a disk before it writes anything. -/
def Disk.survey (d : Disk) (s : Settings) : Except Error (List String × List Path) :=
  (Session.survey d.still Scan.silent s).run

namespace Disk

variable {d : Disk} {s : Settings} {touched : List String} {found : List Path} {p : Path}

/-- A survey that succeeds has read the log of touched files, and then scanned below the root. -/
theorem of_survey (h : d.survey s = .ok (touched, found)) :
    (readLog d.still s.touchedLogPath).run = .ok touched ∧
      (Scan.run d.still Scan.silent (Session.rootOn d s) s.baselineName s.ignored).run =
        .ok found := by
  obtain ⟨lines, hlines, h⟩ := run_bind_eq_ok_iff.1 h
  obtain ⟨root, hroot, h⟩ := run_bind_eq_ok_iff.1 h
  obtain ⟨paths, hpaths, h⟩ := run_bind_eq_ok_iff.1 h
  obtain ⟨rfl, rfl⟩ := Prod.mk.inj (Except.ok.inj h)
  refine ⟨hlines, ?_⟩
  rw [Session.scanRoot] at hroot
  split at hroot
  · cases hroot
  · obtain rfl : Session.rootOn d s = root := Except.ok.inj hroot
    exact hpaths

/-- What a survey finds on a tree. -/
theorem finds_of_survey (htree : d.Tree) (h : d.survey s = .ok (touched, found)) :
    ∃ pattern base, Glob.Pattern.parse s.baselineName = .ok pattern ∧
      Scan.Finds d (s.rules pattern) (Session.rootOn d s) base found :=
  Scan.finds_of_run htree (of_survey h).2

/-- The root of a scan is an absolute path, so what is found has absolute paths as well. -/
theorem isAbsolute_rootOn (d : Disk) (s : Settings) :
    (Session.rootOn d s).isAbsolute = true :=
  Path.isAbsolute_absolute (Path.isAbsolute_pathOf d.cwd) s.scanRootPath

theorem here_notMem_rootOn (htree : d.Tree) (s : Settings) :
    Path.here ∉ (Session.rootOn d s).names := by
  have hcwd : d.get? d.cwd ≠ none := by
    obtain ⟨rights, hnode⟩ := isDirectory_iff.1 htree.cwd
    simp [hnode]
  refine Path.here_notMem_names_absolute (fun hmem => ?_) s.scanRootPath
  rw [Path.names_pathOf fun name hname => (htree.isName_of_mem hcwd hname).toIsPiece] at hmem
  exact (htree.isName_of_mem hcwd hmem).ne_here rfl

/-- The names along a find are those of the scan root, and names of entries behind them. -/
theorem names_of_survey (htree : d.Tree) (h : d.survey s = .ok (touched, found)) (hp : p ∈ found)
    {name : Bytes} (hname : name ∈ p.names) :
    name ∈ (Session.rootOn d s).names ∨ Path.IsName name := by
  obtain ⟨pattern, base, -, tails, rfl, -, hpicks⟩ := finds_of_survey htree h
  obtain ⟨names, hnames, rfl⟩ := List.mem_map.1 hp
  have hisName : ∀ other ∈ names, Path.IsName other := fun other hother =>
    htree.isName_of_mem (hpicks names hnames).file.isFile.get?_ne_none
      (List.mem_append_right base hother)
  rw [Path.names_along _ fun other hother => (hisName other hother).toIsPiece] at hname
  exact (List.mem_append.1 hname).imp_right (hisName name)

/-- What a survey finds is spelled from the top, without a `.` on the way. -/
theorem spelling_of_survey (htree : d.Tree) (h : d.survey s = .ok (touched, found))
    (hp : p ∈ found) : p.isAbsolute = true ∧ Path.here ∉ p.names := by
  refine ⟨?_, fun hmem => ?_⟩
  · obtain ⟨pattern, base, -, tails, rfl, -, -⟩ := finds_of_survey htree h
    obtain ⟨names, -, rfl⟩ := List.mem_map.1 hp
    exact Path.isAbsolute_along (isAbsolute_rootOn d s) names
  · rcases names_of_survey htree h hp hmem with hroot | hname
    · exact here_notMem_rootOn htree s hroot
    · exact hname.ne_here rfl

end Disk

/-! ## A survey on a desk

Each reading of the survey has its lemma, by the structure of its definition. What they all need of
the notes is that leaving one changes nothing else. -/

section

variable {ι : Type} {d : Disk} {note : Note → StateM (Traced (Desk Disk ι)) Unit}

/-- Reading a log is reading. So are all steps of a survey below, each with the readings that it is
made of, and so is the survey. -/
theorem Mirrors.readLog (d : Disk) (p : Path) :
    Mirrors d (readLog (Desk.diskView (ι := ι)) p) (readLog d.still p) := by
  refine Mirrors.bind (Mirrors.lift (Mirrors.content d p)) fun answer => ?_
  cases answer with
  | error e => exact Mirrors.throw d _
  | ok bytes =>
    dsimp only
    cases Utf8.decode? bytes with
    | none => exact Mirrors.throw d _
    | some text => exact Mirrors.pure d _

theorem Mirrors.scanRoot (d : Disk) (s : Settings) :
    Mirrors d (Session.scanRoot (Desk.diskView (ι := ι)) s) (Session.scanRoot d.still s) := by
  rw [Session.scanRoot, Session.scanRoot]
  split
  · exact Mirrors.throw d _
  · exact Mirrors.bind (Mirrors.lift (Reads.here d)) fun cwd => Mirrors.pure d _

variable (hnote : ∀ n, Reads d (note n) ())
include hnote

theorem Reads.ignorePatterns (ignored : List String) :
    Reads d (Scan.ignorePatterns note ignored) (Scan.ignorePatterns Scan.silent ignored) := by
  induction ignored with
  | nil => exact Reads.pure d []
  | cons glob globs ih =>
    rw [Scan.ignorePatterns, Scan.ignorePatterns]
    cases Glob.Pattern.parse glob with
    | ok pattern => exact ih.bind (Reads.pure d _)
    | error e => exact (hnote _).bind ih

theorem Mirrors.whenRead {α : Type} (p : Path)
    {reading : ExceptT IoError (StateM (Traced (Desk Disk ι))) α} {reading' : ExceptT IoError Id α}
    (h : Mirrors d reading reading')
    {go : α → ExceptT Error (StateM (Traced (Desk Disk ι))) (List Path)}
    {go' : α → ExceptT Error Id (List Path)} (hgo : ∀ a, Mirrors d (go a) (go' a)) :
    Mirrors d (Scan.whenRead note p reading go) (Scan.whenRead Scan.silent p reading' go') := by
  refine Mirrors.bind (Mirrors.lift h) fun answer => ?_
  cases answer with
  | ok a => exact hgo a
  | error e =>
    dsimp only
    split
    · exact Mirrors.bind (Mirrors.lift (hnote _)) fun _ => Mirrors.pure d _
    · exact Mirrors.throw d _

omit hnote in
theorem Mirrors.pickAmong (r : ScanRules) (folder : Path)
    {descend : Path → ExceptT Error (StateM (Traced (Desk Disk ι))) (List Path)}
    {descend' : Path → ExceptT Error Id (List Path)}
    (hdescend : ∀ p, Mirrors d (descend p) (descend' p)) (entries : List Entry) :
    Mirrors d (Scan.pickAmong r descend folder entries)
      (Scan.pickAmong r descend' folder entries) := by
  induction entries with
  | nil => exact Mirrors.pure d _
  | cons entry entries ih =>
    rw [Scan.pickAmong_cons, Scan.pickAmong_cons]
    refine Mirrors.bind ?_ fun first => Mirrors.bind ih fun rest => Mirrors.pure d _
    rw [Scan.pickAt, Scan.pickAt]
    split
    · exact Mirrors.pure d _
    · split
      · exact hdescend _
      · exact Mirrors.pure d _
      · exact Mirrors.pure d _

/-- The walk below a path only reads, level by level. What it notes of directories that are closed
is a remark. -/
theorem Mirrors.below (r : ScanRules) (levels : Nat) (p : Path) :
    Mirrors d (Scan.below Desk.diskView note r levels p)
      (Scan.below d.still Scan.silent r levels p) := by
  induction levels generalizing p with
  | zero => exact Mirrors.throw d _
  | succ levels ih =>
    exact Mirrors.whenRead hnote p (Mirrors.entries d p) fun entries =>
      Mirrors.pickAmong r p ih (Scan.inOrder entries)

theorem Mirrors.picked (r : ScanRules) (root : Path) :
    Mirrors d (Scan.picked Desk.diskView note r root)
      (Scan.picked d.still Scan.silent r root) := by
  refine Mirrors.whenRead hnote root (Mirrors.kind d root) fun kind => ?_
  cases kind with
  | file => exact Mirrors.pure d _
  | directory => exact Mirrors.below hnote r Scan.depthLimit root
  | link =>
    refine Mirrors.whenRead hnote root (Mirrors.targetKind d root) fun target => ?_
    cases target with
    | directory => exact Mirrors.below hnote r Scan.depthLimit root
    | file => exact Mirrors.pure d _
    | link => exact Mirrors.pure d _

theorem Mirrors.scan (root : Path) (fitting : String) (ignored : List String) :
    Mirrors d (Scan.run Desk.diskView note root fitting ignored)
      (Scan.run d.still Scan.silent root fitting ignored) := by
  rw [Scan.run, Scan.run]
  cases Glob.Pattern.parse fitting with
  | error e => exact Mirrors.throw d _
  | ok pattern =>
    exact Mirrors.bind (Mirrors.lift (Reads.ignorePatterns hnote ignored)) fun patterns =>
      Mirrors.picked hnote _ root

theorem Mirrors.survey (s : Settings) :
    Mirrors d (Session.survey Desk.diskView note s) (Session.survey d.still Scan.silent s) :=
  Mirrors.bind (Mirrors.readLog d _) fun _ => Mirrors.bind (Mirrors.scanRoot d s) fun root =>
    Mirrors.bind (Mirrors.scan hnote root _ _) fun _ => Mirrors.pure d _

theorem Reads.textPaths (found : List Path) :
    Reads d (Session.textPaths note found) (found.filterMap Path.text?) := by
  induction found with
  | nil => exact Reads.pure d []
  | cons p ps ih =>
    rw [Session.textPaths, List.filterMap_cons]
    cases p.text? with
    | none => exact (hnote _).bind ih
    | some text => exact ih.bind (Reads.pure d _)

end

/-! ## From the survey on -/

section

variable {m : Type → Type} [Monad m]

theorem Outside.sayAll_with_note (o : Outside m) (note : Note → m Unit) (lines : List String) :
    { o with note := note }.sayAll lines = o.sayAll lines := by
  induction lines with
  | nil => rfl
  | cons line lines ih => rw [Outside.sayAll, Outside.sayAll, ih]

theorem Outside.deleteAll_with_note (o : Outside m) (note : Note → m Unit) (paths : List String) :
    { o with note := note }.deleteAll paths = o.deleteAll paths := by
  induction paths with
  | nil => rfl
  | cons path paths ih => rw [Outside.deleteAll, Outside.deleteAll, ih]

/-- Once the survey is done, a sweep leaves no note. -/
theorem Sweep.run_with_note (o : Outside m) (note : Note → m Unit) (mode : Mode)
    (touched onDisk : List String) :
    run { o with note := note } mode touched onDisk = run o mode touched onDisk := by
  rw [run, run]
  simp only [Outside.sayAll_with_note, Outside.deleteAll_with_note]
  rfl

end

namespace Session

variable {ι : Type} {next : ExceptT IoError (StateM ι) String} {s : Settings} {mode : Mode}
  {t : Traced (Desk Disk ι)}

section

variable {note : Note → StateM (Traced (Desk Disk ι)) Unit} (hnote : ∀ d n, Reads d (note n) ())
include hnote

/-- On a desk a survey is a function of the disk, and leaves remarks at most. From here on a sweep
can be told as one step on the answer. -/
theorem run_survey (s : Settings) (t : Traced (Desk Disk ι)) :
    ∃ remarks, Remarks remarks ∧ (survey Desk.diskView note s).run.run t =
      (t.state.store.survey s, ⟨t.state, t.events ++ remarks⟩) :=
  Mirrors.survey (hnote t.state.store) s t rfl

variable (next mode) in
/-- A survey that fails is all that there is to the sweep. -/
theorem run_sweep_of_survey_error {e : Error} (h : t.state.store.survey s = .error e) :
    ∃ remarks, Remarks remarks ∧
      (sweep Desk.diskView { Desk.diskOutside next with note := note } s mode).run.run t =
        (.error e, ⟨t.state, t.events ++ remarks⟩) := by
  obtain ⟨remarks, hremarks, hrun⟩ := run_survey hnote s t
  rw [h] at hrun
  refine ⟨remarks, hremarks, ?_⟩
  rw [sweep_eq, run_bind_error hrun]

variable (next mode) in
/-- Behind its survey a sweep takes the course of a sweep of what the survey found. -/
theorem run_sweep_of_survey {touched : List String} {found : List Path}
    (h : t.state.store.survey s = .ok (touched, found)) :
    ∃ remarks, Remarks remarks ∧ ∃ (c : Sweep.Course) (result : Except Error Sweep)
      (after : Desk Disk ι),
      c.Accounts Disk.delete next mode (strays touched (found.filterMap Path.text?)) t.state result
        after ∧
      (sweep Desk.diskView { Desk.diskOutside next with note := note } s mode).run.run t =
        (result, ⟨after, t.events ++ remarks ++ c.events⟩) := by
  obtain ⟨remarks, hremarks, hrun⟩ := run_survey hnote s t
  rw [h] at hrun
  -- paths that are no text leave notes, and the rest goes on without them
  obtain ⟨more, hmore, htexts⟩ := Reads.textPaths (hnote t.state.store) found
    ⟨t.state, t.events ++ remarks⟩ rfl
  have hlift : (ExceptT.lift (textPaths note found) :
      ExceptT Error (StateM (Traced (Desk Disk ι))) (List String)).run.run
        ⟨t.state, t.events ++ remarks⟩ =
      (.ok (found.filterMap Path.text?), ⟨t.state, t.events ++ remarks ++ more⟩) := by
    rw [ExceptT.run_lift, StateT.run_map]
    exact congrArg (fun answer => (Except.ok answer.1, answer.2)) htexts
  obtain ⟨c, result, after, haccounts, hrest⟩ := Sweep.run_accounts Disk.move Disk.delete next mode
    touched (found.filterMap Path.text?) ⟨t.state, t.events ++ remarks ++ more⟩
  refine ⟨remarks ++ more, hremarks.append hmore, c, result, after, haccounts, ?_⟩
  rw [sweep_eq, run_bind_ok hrun]
  dsimp only
  rw [run_bind_ok hlift, Sweep.run_with_note, ← List.append_assoc]
  exact hrest

end

variable {desk : Desk Disk ι}

variable (next mode) in
/-- A sweep on a desk whose survey fails. It ends with the error of the survey, and leaves no more
than the remarks of the survey. -/
theorem sweepOn_eq_of_survey_error {e : Error} (h : desk.store.survey s = .error e) :
    ∃ remarks, Remarks remarks ∧
      sweepOn next s mode (.start desk) = (.error e, ⟨desk, remarks⟩) :=
  run_sweep_of_survey_error next mode (Reads.note Disk.move Disk.delete next) (t := .start desk) h

variable (next mode) in
/-- A sweep on a desk whose survey fails changes and deletes nothing. -/
theorem sweepOn_of_survey_error {e : Error} (h : desk.store.survey s = .error e) :
    (sweepOn next s mode (.start desk)).1 = .error e ∧
      (sweepOn next s mode (.start desk)).2.state = desk ∧
      (sweepOn next s mode (.start desk)).2.deletions = [] := by
  obtain ⟨remarks, hremarks, hsweep⟩ := sweepOn_eq_of_survey_error next mode h
  rw [hsweep]
  exact ⟨rfl, rfl, hremarks.deletions_eq⟩

variable (next mode) in
/-- A sweep on a desk, from its survey on. It goes as a course for what was touched and what was
found, on the same desk with the remarks of the survey in front. -/
theorem sweepOn_eq_of_survey {touched : List String} {found : List Path}
    (h : desk.store.survey s = .ok (touched, found)) :
    ∃ (remarks : List Event) (c : Sweep.Course) (result : Except Error Sweep)
      (after : Desk Disk ι), Remarks remarks ∧
      c.Accounts Disk.delete next mode (strays touched (found.filterMap Path.text?)) desk result
        after ∧
      sweepOn next s mode (.start desk) = (result, ⟨after, remarks ++ c.events⟩) := by
  obtain ⟨remarks, hremarks, c, result, after, haccounts, hrun⟩ := run_sweep_of_survey next mode
    (Reads.note Disk.move Disk.delete next) (t := .start desk) h
  have hsweep : sweepOn next s mode (.start desk) =
      (result, ⟨after, [] ++ remarks ++ c.events⟩) := hrun
  rw [List.nil_append] at hsweep
  exact ⟨remarks, c, result, after, hremarks, haccounts, hsweep⟩

variable (next mode) in
/-- What a sweep on a desk deletes, from its survey on. -/
theorem sweepOn_of_survey {touched : List String} {found : List Path}
    (h : desk.store.survey s = .ok (touched, found)) :
    ∃ c : Sweep.Course,
      c.Accounts Disk.delete next mode (strays touched (found.filterMap Path.text?)) desk
        (sweepOn next s mode (.start desk)).1 (sweepOn next s mode (.start desk)).2.state ∧
      (sweepOn next s mode (.start desk)).2.deletions = c.tried := by
  obtain ⟨remarks, c, result, after, hremarks, haccounts, hsweep⟩ :=
    sweepOn_eq_of_survey next mode h
  refine ⟨c, ?_, ?_⟩
  · rw [hsweep]
    exact haccounts
  · rw [hsweep, Traced.deletions, List.filterMap_append, hremarks.deletions_eq,
      c.deletions_events, List.nil_append]

end Session

end Baseline
