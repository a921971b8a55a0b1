import Baseline.Path
import Baseline.Sweep.Mode

/-!
# Settings

Where a run finds its logs and its baselines, and how a sweep goes on by default. The paths that a
run works with are made from the settings here.
-/

namespace Baseline

/-- The settings of a run. -/
structure Settings where
  /-- the directory of the logs -/
  logFolder : String
  /-- the log of the failed comparisons, as seen from `logFolder` -/
  comparisonLog : String
  /-- the log of the touched baselines, as seen from `logFolder` -/
  touchedLog : String
  /-- where to look for baselines; if none is given, what `logFolder` lies in -/
  scanRoot : Option String
  /-- what the name of a baseline fits -/
  baselineName : String
  /-- what the path of an ignored entry fits -/
  ignored : List String
  /-- how a sweep deals with strays -/
  mode : Mode
deriving DecidableEq, Repr

namespace Settings

/-- The settings where nothing is set. -/
def default : Settings where
  logFolder := ".approval_tests_temp"
  comparisonLog := ".failed_comparison.log"
  touchedLog := ".approved_files.log"
  scanRoot := none
  baselineName := "*.approved.*"
  ignored := []
  mode := .prompt

instance : Inhabited Settings := ⟨default⟩

/-- The path of the log of the failed comparisons. -/
def comparisonLogPath (s : Settings) : Path :=
  (Path.ofString s.logFolder).join (Path.ofString s.comparisonLog)

/-- The path of the log of the touched baselines. -/
def touchedLogPath (s : Settings) : Path :=
  (Path.ofString s.logFolder).join (Path.ofString s.touchedLog)

/-- Where to look for baselines: the root that is set, else what the log directory lies in, else
the working directory. -/
def scanRootPath (s : Settings) : Path :=
  match s.scanRoot with
  | some root => Path.ofString root
  | none =>
    match (Path.ofString s.logFolder).parent? with
    | some folder => if folder.bytes.isEmpty then ⟨Path.here⟩ else folder
    | none => ⟨Path.here⟩

end Settings

end Baseline
