import Baseline.Command
import Baseline.Proofs.Session.Survey

/-!
# One run of the command line

Up to the session itself a run only reads: the environment file, the arguments and the settings.
What it reads is a function of the disk (`environmentOn`, `settingsOn`), and without a log file all
that it leaves are remarks, so a run is what `obey` makes of what was read (`run_eq_obey`), and that
is a usage error, a text, a configuration error or a session (`run_obey_settings`).
-/

namespace Baseline

section

variable {ι α β : Type} {d : Disk}

/-- Reading goes on with reading. The pure side is in `Id`, so what was read first is simply handed
on. -/
theorem Reads.bind_id {x : StateM (Traced (Desk Disk ι)) α} {y : Id α}
    {f : α → StateM (Traced (Desk Disk ι)) β} {g : α → Id β} (h : Reads d x y)
    (hf : ∀ a, Reads d (f a) (g a)) : Reads d (x >>= f) (y >>= g) :=
  h.bind (hf y)

/-! ## What a run reads -/

/-- The search for the environment file goes up folder by folder and only ever looks, so it finds on
the desk what it finds on the disk as it stands. -/
theorem Reads.find (above : Nat) (folder : Path) :
    Reads d (EnvFile.find (Desk.diskView (ι := ι)) above folder)
      (EnvFile.find d.still above folder) := by
  induction above generalizing folder with
  | zero =>
    rw [EnvFile.find, EnvFile.find]
    refine Reads.bind_id (Mirrors.targetKind d _) fun answer => ?_
    cases answer with
    | ok kind => cases kind <;> exact Reads.pure d _
    | error e =>
      dsimp only
      split <;> exact Reads.pure d _
  | succ above ih =>
    rw [EnvFile.find, EnvFile.find]
    -- either answer that lets the search go up does so in the same way
    cases folder.parent? with
    | none =>
      refine Reads.bind_id (Mirrors.targetKind d _) fun answer => ?_
      cases answer with
      | ok kind => cases kind <;> exact Reads.pure d _
      | error e =>
        dsimp only
        split <;> exact Reads.pure d _
    | some parent =>
      refine Reads.bind_id (Mirrors.targetKind d _) fun answer => ?_
      cases answer with
      | ok kind =>
        cases kind with
        | file => exact Reads.pure d _
        | directory => exact ih parent
        | link => exact ih parent
      | error e =>
        dsimp only
        split
        · exact ih parent
        · exact Reads.pure d _

/-- The environment with the file's variables is a function of the disk: loading it looks for the
file, reads it if there is one, and changes nothing. -/
theorem Reads.environment (environment : EnvFile.Variables) :
    Reads d (EnvFile.load (Desk.diskView (ι := ι)) environment)
      (EnvFile.load d.still environment) := by
  refine (Reads.here d).bind_id fun folder => ?_
  refine (Reads.find _ folder).bind_id fun file? => ?_
  cases file? with
  | none => exact Reads.pure d _
  | some file =>
    refine Reads.bind_id (Mirrors.content d file) fun answer => ?_
    cases answer with
    | error e => exact Reads.pure d _
    | ok content => exact Reads.pure d _

theorem Reads.isFile (p : Path) :
    Reads d (Settings.isFile (Desk.diskView (ι := ι)) p) (Settings.isFile d.still p) := by
  refine Reads.bind_id (Mirrors.targetKind d p) fun answer => ?_
  cases answer with
  | error e => exact Reads.pure d _
  | ok kind => cases kind <;> exact Reads.pure d _

/-- The first settings file that is there is found by looking at each name in turn, which leaves the
disk alone whether or not one is there. -/
theorem Reads.firstFile (formats : List Settings.FileFormat) :
    Reads d (Settings.firstFile (Desk.diskView (ι := ι)) formats)
      (Settings.firstFile d.still formats) := by
  induction formats with
  | nil => exact Reads.pure d _
  | cons format formats ih =>
    rw [Settings.firstFile, Settings.firstFile]
    refine Reads.bind_id (Reads.isFile _) fun there => ?_
    split
    · refine Reads.bind_id (Mirrors.content d _) fun answer => ?_
      cases answer with
      | error e => exact Reads.pure d _
      | ok content => exact Reads.pure d _
    · exact ih

/-- Loading the settings is reading, even where it fails. -/
theorem Reads.settings (environment : EnvFile.Variables) :
    Reads d (Settings.load (Desk.diskView (ι := ι)) environment)
      (Settings.load d.still environment) := by
  refine Reads.bind_id ?_ fun layer => ?_
  · rw [Settings.fileLayer, Settings.fileLayer]
    refine Reads.bind_id (Reads.isFile _) fun there => ?_
    split
    · exact Reads.pure d _
    · exact Reads.firstFile _
  · cases layer with
    | error e => exact Reads.pure d _
    | ok file => exact Reads.pure d _

end

namespace Command

variable {d : Disk} {environment : EnvFile.Variables} {arguments : List String}

/-- The environment of a run, with what the disk adds to it. -/
def environmentOn (d : Disk) (environment : EnvFile.Variables) : EnvFile.Variables :=
  EnvFile.load d.still environment

/-- The settings of a run in an environment. -/
def settingsOn (d : Disk) (environment : EnvFile.Variables) : Except SettingsError Settings :=
  Settings.load d.still environment

/-! ## What a run leaves besides -/

theorem reads_complain (line : String) : Reads d (deskMachine.complain line) () := by
  intro t ht
  refine ⟨[.complained line], fun event hevent => ?_, rfl⟩
  rw [List.mem_singleton.1 hevent]
  trivial

theorem reads_complaints (lines : List String) : Reads d (lines.forM deskMachine.complain) () := by
  induction lines with
  | nil => exact Reads.pure d ()
  | cons line lines ih => exact (reads_complain line).bind ih

/-- The trace of a note of a run without a log file. -/
def noteEvents (environment : EnvFile.Variables) (n : Note) : List Event :=
  .noted n :: if (noteFilter environment).shows n then [.complained (noteLine n)] else []

/-- Without a log file a note goes to the trace and, if it is one that is shown, to the error
output; the disk is not touched. -/
theorem run_note (hlog : logFile environment = none) (n : Note)
    (t : Traced (Desk Disk Input)) :
    (note deskMachine environment n).run t =
      ((), ⟨t.state, t.events ++ noteEvents environment n⟩) := by
  have hnoted : (deskMachine.outside.note n).run t = ((), ⟨t.state, t.events ++ [.noted n]⟩) := rfl
  rw [note, run_bind_of_eq hnoted, noteEvents, hlog]
  split
  · have hline : (deskMachine.complain (noteLine n)).run ⟨t.state, t.events ++ [.noted n]⟩ =
        ((), ⟨t.state, t.events ++ [.noted n] ++ [.complained (noteLine n)]⟩) := rfl
    rw [run_bind_of_eq hline, List.append_assoc]
    rfl
  · rfl

theorem remarks_noteEvents (environment : EnvFile.Variables) (n : Note) :
    Remarks (noteEvents environment n) := by
  intro event hevent
  rw [noteEvents] at hevent
  rcases List.mem_cons.1 hevent with rfl | hevent
  · trivial
  · split at hevent
    · rw [List.mem_singleton.1 hevent]
      trivial
    · exact absurd hevent List.not_mem_nil

/-- So for everything that is told of a run by its readings a note is no more than a remark. -/
theorem reads_note (hlog : logFile environment = none) (d : Disk) (n : Note) :
    Reads d (note deskMachine environment n) () :=
  fun t _ => ⟨_, remarks_noteEvents environment n, run_note hlog n t⟩

theorem reads_fail (hlog : logFile environment = none) (intro message : String) :
    Reads d (fail deskMachine environment intro message) .failed :=
  (reads_note hlog d _).bind ((reads_complain _).bind (Reads.pure d _))

/-! ## The end of a session -/

/-- A session that succeeds ends a run well. Nothing is added to its trace. -/
theorem run_conclude_ok {α : Type} {session : ExceptT Error (StateM (Traced (Desk Disk Input))) α}
    {t t' : Traced (Desk Disk Input)} {a : α} (h : session.run.run t = (.ok a, t')) :
    (conclude deskMachine environment session).run t = (.done, t') := by
  rw [conclude, run_bind_of_eq h]
  rfl

/-- A session that fails makes the run fail, and no more than remarks come of that. -/
theorem run_conclude_error {α : Type} (hlog : logFile environment = none)
    {session : ExceptT Error (StateM (Traced (Desk Disk Input))) α}
    {t t' : Traced (Desk Disk Input)} {e : Error} (h : session.run.run t = (.error e, t')) :
    ∃ remarks, Remarks remarks ∧ (conclude deskMachine environment session).run t =
      (.failed, ⟨t'.state, t'.events ++ remarks⟩) := by
  rw [conclude, run_bind_of_eq h]
  exact reads_fail hlog "Error: " e.message t' rfl

/-- However a session ends, what follows leaves remarks at most. -/
theorem run_conclude {α : Type} (hlog : logFile environment = none)
    {session : ExceptT Error (StateM (Traced (Desk Disk Input))) α}
    {t t' : Traced (Desk Disk Input)} {result : Except Error α}
    (h : session.run.run t = (result, t')) :
    ∃ exit remarks, Remarks remarks ∧ (conclude deskMachine environment session).run t =
      (exit, ⟨t'.state, t'.events ++ remarks⟩) := by
  cases result with
  | ok a =>
    refine ⟨.done, [], .nil, ?_⟩
    rw [run_conclude_ok h, List.append_nil]
  | error e => exact ⟨.failed, run_conclude_error hlog h⟩

/-! ## From the arguments on -/

/-- Up to the arguments a run leaves remarks at most. -/
theorem run_eq_obey (arguments : List String)
    (hlog : logFile (environmentOn d environment) = none)
    {t : Traced (Desk Disk Input)} (ht : t.state.store = d) :
    ∃ remarks, Remarks remarks ∧ (run deskMachine environment arguments).run t =
      (obey deskMachine (environmentOn d environment) arguments).run
        ⟨t.state, t.events ++ remarks⟩ := by
  obtain ⟨remarks, hremarks, hread⟩ := Reads.environment environment t ht
  have hread : (EnvFile.load deskMachine.view environment).run t =
      (environmentOn d environment, ⟨t.state, t.events ++ remarks⟩) := hread
  obtain ⟨more, hmore, hcomplaints⟩ := reads_complaints
    (noteFilter (environmentOn d environment)).complaints ⟨t.state, t.events ++ remarks⟩ ht
  refine ⟨remarks ++ more, hremarks.append hmore, ?_⟩
  rw [run, run_bind_of_eq hread, run_bind_of_eq hcomplaints, openLog, hlog, ← List.append_assoc]
  rfl

/-- Where the arguments make a request other than for help, a run without settings has failed. -/
theorem run_obey_error (hlog : logFile environment = none) {request : Request}
    (hrequest : Request.ofArguments arguments = .ok request)
    (hhelp : ∀ topic, request ≠ .help topic) {e : SettingsError}
    (hsettings : settingsOn d environment = .error e) {t : Traced (Desk Disk Input)}
    (ht : t.state.store = d) :
    ∃ remarks, Remarks remarks ∧ (obey deskMachine environment arguments).run t =
      (.failed, ⟨t.state, t.events ++ remarks⟩) := by
  obtain ⟨remarks, hremarks, hread⟩ := Reads.settings environment t ht
  have hread : (Settings.load deskMachine.view environment).run t =
      (settingsOn d environment, ⟨t.state, t.events ++ remarks⟩) := hread
  obtain ⟨more, hmore, hfail⟩ := reads_fail hlog "Error loading configuration: " e.message
    ⟨t.state, t.events ++ remarks⟩ ht
  refine ⟨remarks ++ more, hremarks.append hmore, ?_⟩
  rw [hsettings] at hread
  rw [obey, hrequest, ← List.append_assoc]
  cases request with
  | help topic => exact absurd rfl (hhelp topic)
  | nothing | accept | sweep | settings =>
    dsimp only
    rw [run_bind_of_eq hread]
    exact hfail

/-- With settings it goes on to what was asked for. -/
theorem run_obey_ok {request : Request} (hrequest : Request.ofArguments arguments = .ok request)
    (hhelp : ∀ topic, request ≠ .help topic) {settings : Settings}
    (hsettings : settingsOn d environment = .ok settings) {t : Traced (Desk Disk Input)}
    (ht : t.state.store = d) :
    ∃ remarks, Remarks remarks ∧ (obey deskMachine environment arguments).run t =
      (perform deskMachine environment settings request).run ⟨t.state, t.events ++ remarks⟩ := by
  obtain ⟨remarks, hremarks, hread⟩ := Reads.settings environment t ht
  have hread : (Settings.load deskMachine.view environment).run t =
      (settingsOn d environment, ⟨t.state, t.events ++ remarks⟩) := hread
  refine ⟨remarks, hremarks, ?_⟩
  rw [hsettings] at hread
  rw [obey, hrequest]
  cases request with
  | help topic => exact absurd rfl (hhelp topic)
  | nothing | accept | sweep | settings =>
    dsimp only
    rw [run_bind_of_eq hread]

end Command

end Baseline
