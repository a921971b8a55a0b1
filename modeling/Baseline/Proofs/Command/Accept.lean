import Baseline.Proofs.Command.Run
import Baseline.Proofs.Session.Accept

/-!
# Accepting from the command line

What a run that accepts leaves behind, for each way in which it can end (`accept_atomic`). A log at
fault leaves the disk as it is. Nothing else is an error, except that of an output that closes, and
that comes when everything is moved already. So an exit code of failure, on an output that takes
every line, means that nothing was moved; and the code of success means that every record was
tried.
-/

namespace Baseline.Command

variable {d : Disk} {environment : EnvFile.Variables} {arguments : List String}

/-- How a run that accepts ends, on an output that takes every line. -/
inductive AcceptEnd (d : Disk) (environment : EnvFile.Variables) :
    Exit → Traced (Desk Disk Input) → Prop where
  /-- there are no settings, or the log is at fault, and nothing is moved -/
  | failed {t : Traced (Desk Disk Input)} (store : t.state.store = d) :
      AcceptEnd d environment .failed t
  /-- every record of the log is tried once, in order -/
  | done {t : Traced (Desk Disk Input)} {settings : Settings} {lines : List String}
      {records : List Comparison} (settings_eq : settingsOn d environment = .ok settings)
      (log : (readLog d.still settings.comparisonLogPath).run = .ok lines)
      (spells : List.Forall₂ Comparison.Spells lines records)
      (moves : t.moves = records.map Comparison.paths) : AcceptEnd d environment .done t

/-- The session of a run that accepts, behind what was only read. -/
theorem acceptEnd_of_session (hlog : logFile environment = none) {settings : Settings}
    (hsettings : settingsOn d environment = .ok settings) (input : Input) {events : List Event}
    (hevents : Remarks events) :
    ∃ exit t', AcceptEnd d environment exit t' ∧
      (perform deskMachine environment settings .accept).run ⟨⟨d, input, none⟩, events⟩ =
        (exit, t') := by
  have hnote : Leaves (Desk.outside Disk.move Disk.delete Input.next) (note deskMachine environment)
      (noteEvents environment) := run_note hlog
  rcases Session.acceptance_of hnote d settings with
    @⟨e, -, hsession⟩ | @⟨lines, records, tried, after, hlines, hspells, hall, hsession⟩
  · obtain ⟨remarks, -, hrun⟩ := run_conclude_error hlog
      (hsession ⟨⟨d, input, none⟩, events⟩ rfl)
    exact ⟨_, _, .failed rfl, hrun⟩
  · have hsuccess := hsession input none events
    rw [if_pos (fits_none _)] at hsuccess
    refine ⟨_, _, .done hsettings hlines hspells ?_, run_conclude_ok hsuccess⟩
    rw [Traced.moves, filterMap_move?_append_said, List.filterMap_append, hevents.moves_eq,
      moves_of_tried fun n => (remarks_noteEvents environment n).moves_eq, ← hall, List.map_map]
    rfl

/-- On an output that takes every line a run that accepts ends in one of the two ways. -/
theorem acceptEnd_of_run (hrequest : Request.ofArguments arguments = .ok .accept)
    (hlog : logFile (environmentOn d environment) = none) (input : Input) :
    ∃ exit t', AcceptEnd d (environmentOn d environment) exit t' ∧
      (run deskMachine environment arguments).run (.start ⟨d, input, none⟩) = (exit, t') := by
  obtain ⟨remarks, hremarks, hrun⟩ := run_eq_obey (t := .start ⟨d, input, none⟩) arguments hlog rfl
  rw [hrun]
  cases hsettings : settingsOn d (environmentOn d environment) with
  | error e =>
    obtain ⟨more, -, hobey⟩ := run_obey_error hlog hrequest nofun hsettings
      (t := ⟨⟨d, input, none⟩, [] ++ remarks⟩) rfl
    exact ⟨_, _, .failed rfl, hobey⟩
  | ok settings =>
    obtain ⟨more, hmore, hobey⟩ := run_obey_ok hrequest nofun hsettings
      (t := ⟨⟨d, input, none⟩, [] ++ remarks⟩) rfl
    obtain ⟨exit, t', hend, hperform⟩ := acceptEnd_of_session hlog hsettings input
      ((Remarks.nil.append hremarks).append hmore)
    exact ⟨exit, t', hend, hobey.trans hperform⟩

/-- **Accepting fails as a whole or not at all.** In a session, for every disk, all settings and an
output that takes any number of lines: where the log is at fault the disk is as it was and nothing
is written; the only other error is that of the output, and all that the output changes are the
result and the lines, of which the first ones are written. So for a run of the command line that
accepts, on an output that takes every line and without a log file: if it fails the disk is as it
was, and if it succeeds the lines of the log are records, each of which was tried once, in order. -/
theorem accept_atomic (d : Disk) :
    (∀ {ι : Type} (next : ExceptT IoError (StateM ι) String) (s : Settings) (answers : ι) (n : Nat),
      Session.OutputOnly d n (Session.acceptOn next s (.start ⟨d, answers, some n⟩))
        (Session.acceptOn next s (.start ⟨d, answers, none⟩))) ∧
    ∀ (environment : EnvFile.Variables) (arguments : List String) (input : Input),
      Request.ofArguments arguments = .ok .accept →
      (environmentOn d environment).lookup logVariable = none →
      ∀ exit t', (run deskMachine environment arguments).run (.start ⟨d, input, none⟩) =
          (exit, t') →
        (exit.code = 1 → t'.state.store = d) ∧
        (exit.code = 0 → ∃ settings lines records,
          settingsOn d (environmentOn d environment) = .ok settings ∧
          (readLog d.still settings.comparisonLogPath).run = .ok lines ∧
          List.Forall₂ Comparison.Spells lines records ∧
          t'.moves = records.map Comparison.paths) := by
  constructor
  · intro ι next s answers n
    exact Session.acceptOn_outputOnly next s d answers n
  · intro environment arguments input hrequest hlookup exit t' hrun
    have hlog : logFile (environmentOn d environment) = none := by
      rw [logFile, hlookup]
      rfl
    obtain ⟨exit', t'', hend, hrun'⟩ := acceptEnd_of_run hrequest hlog input
    obtain ⟨rfl, rfl⟩ := Prod.mk.inj (hrun'.symm.trans hrun)
    cases hend with
    | failed hstore => exact ⟨fun _ => hstore, fun hcode => absurd hcode nofun⟩
    | done hsettings hlines hspells hmoves =>
      exact ⟨fun hcode => absurd hcode nofun,
        fun _ => ⟨_, _, _, hsettings, hlines, hspells, hmoves⟩⟩

/-- Two pending comparisons, the first of which has nothing to move. -/
def pending : Disk :=
  .laidOut ["w"] [[], ["w"], ["w", ".approval_tests_temp"]]
    [(["w", "b.received.txt"], "new"), (["w", "b.approved.txt"], "old"),
      (["w", ".approval_tests_temp", ".failed_comparison.log"],
        "a.received.txt -> a.approved.txt\nb.received.txt -> b.approved.txt\n")]

set_option maxRecDepth 10000 in
/-- The first move fails, the second one is made, and the run succeeds. -/
theorem accept_atomic_pending :
    Request.ofArguments ["approve-all"] = .ok .accept ∧
      (environmentOn pending []).lookup logVariable = none ∧
      ((run deskMachine [] ["approve-all"]).run (.start ⟨pending, ⟨[]⟩, none⟩)).1.code = 0 ∧
      ((run deskMachine [] ["approve-all"]).run (.start ⟨pending, ⟨[]⟩, none⟩)).2.moves =
        [("a.received.txt", "a.approved.txt"), ("b.received.txt", "b.approved.txt")] ∧
      ∃ settings lines records, settingsOn pending (environmentOn pending []) = .ok settings ∧
        (readLog pending.still settings.comparisonLogPath).run = .ok lines ∧
        List.Forall₂ Comparison.Spells lines records ∧
        ((run deskMachine [] ["approve-all"]).run (.start ⟨pending, ⟨[]⟩, none⟩)).2.moves =
          records.map Comparison.paths := by
  have hrequest : Request.ofArguments ["approve-all"] = .ok .accept := by decide +kernel
  have hlookup : (environmentOn pending []).lookup logVariable = none := by decide +kernel
  have hcode : ((run deskMachine [] ["approve-all"]).run
      (.start ⟨pending, ⟨[]⟩, none⟩)).1.code = 0 := by decide +kernel
  exact ⟨hrequest, hlookup, hcode, by decide +kernel,
    ((accept_atomic pending).2 [] ["approve-all"] ⟨[]⟩ hrequest hlookup _ _
      (Prod.eta _).symm).2 hcode⟩

end Baseline.Command
