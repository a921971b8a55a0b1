import Baseline.Command.EnvFile
import Baseline.Command.Help
import Baseline.Command.Machine
import Baseline.Command.NoteLine
import Baseline.Session
import Baseline.Settings.Load
import Baseline.Settings.Shown

/-!
# The command line

One run of the program, from its arguments to its exit code. The order is fixed: the environment
file, which notes to show, the log file, the arguments, the settings, and then what was asked for.
Each step that fails ends the run with its own exit code, before anything of the later steps is
done.
-/

namespace Baseline.Command

/-- How a run ends. -/
inductive Exit where
  /-- it did what was asked for -/
  | done
  /-- it failed, and said why -/
  | failed
  /-- the arguments make no request -/
  | usage
  /-- the log file cannot be kept -/
  | noLog
deriving DecidableEq, Repr

/-- The exit code. -/
def Exit.code : Exit → Nat
  | done => 0
  | failed => 1
  | usage => 2
  | noLog => 101

/-- The variable that says which notes to show. -/
def filterVariable : String := "TRACING_LEVEL"

/-- The variable that names the log file. -/
def logVariable : String := "LOG_FILE_PATH"

/-- Which notes are shown in an environment: all, unless it says otherwise. -/
def noteFilter (environment : EnvFile.Variables) : NoteFilter :=
  NoteFilter.ofText ((environment.lookup filterVariable).getD "warn")

/-- The log file in an environment. -/
def logFile (environment : EnvFile.Variables) : Option Path :=
  (environment.lookup logVariable).map fun name => (Path.ofString "./").join (Path.ofString name)

section

variable {m : Type → Type} [Monad m]

/-- Leaves a note: on the error output and in the log file, if it is one that is shown. -/
def note (mc : Machine m) (environment : EnvFile.Variables) (n : Note) : m Unit := do
  mc.outside.note n
  if (noteFilter environment).shows n then
    mc.complain (noteLine n)
    match logFile environment with
    | none => return ()
    | some file => discard (mc.append file (logLine n))

/-- Says why the run failed. -/
def fail (mc : Machine m) (environment : EnvFile.Variables) (intro message : String) : m Exit := do
  note mc environment ⟨.error, .command, intro ++ message⟩
  mc.complain ("error: " ++ message)
  return .failed

/-- The outside of a session, with notes going where they are shown. -/
def sessionOutside (mc : Machine m) (environment : EnvFile.Variables) : Outside m :=
  { mc.outside with note := note mc environment }

/-- Ends a session. -/
def conclude {α : Type} (mc : Machine m) (environment : EnvFile.Variables)
    (session : ExceptT Error m α) : m Exit := do
  match ← session.run with
  | .ok _ => return .done
  | .error e => fail mc environment "Error: " e.message

/-- Does what was asked for, where the settings are known. -/
def perform (mc : Machine m) (environment : EnvFile.Variables) (settings : Settings) :
    Request → m Exit
  | .nothing => do
    mc.print overview
    return .done
  | .help topic => do
    mc.print topic.text
    return .done
  | .settings => do
    mc.print ("Configuration: " ++ settings.shown ++ "\n")
    return .done
  | .accept =>
    conclude mc environment
      (Session.accept mc.view (sessionOutside mc environment) settings)
  | .sweep options =>
    conclude mc environment
      (Session.sweep mc.view (sessionOutside mc environment) settings
        (options.resolve settings.mode))

/-- Opens the log file, if there is to be one. -/
def openLog (mc : Machine m) (environment : EnvFile.Variables) : m Bool := do
  match logFile environment with
  | none => return true
  | some file =>
    match ← mc.append file "" with
    | .ok () => return true
    | .error _ => return false

/-- Reads the arguments and the settings, and does what was asked for. Help needs no settings. -/
def obey (mc : Machine m) (environment : EnvFile.Variables) (arguments : List String) : m Exit := do
  match Request.ofArguments arguments with
  | .error _ => return .usage
  | .ok (.help topic) =>
    mc.print topic.text
    return .done
  | .ok request =>
    match ← Settings.load mc.view environment with
    | .error e => fail mc environment "Error loading configuration: " e.message
    | .ok settings => perform mc environment settings request

/-- One run. -/
def run (mc : Machine m) (environment : EnvFile.Variables) (arguments : List String) : m Exit := do
  let environment ← EnvFile.load mc.view environment
  (noteFilter environment).complaints.forM mc.complain
  if ← openLog mc environment then obey mc environment arguments else return .noLog

end

end Baseline.Command
