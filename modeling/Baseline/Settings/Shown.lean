import Baseline.Settings
import Baseline.Text.Quoted

/-!
# Settings for a reader

The settings in full, one on each line, with everything spelled out that could not be seen.
-/

namespace Baseline

/-- The name of a mode among the settings. -/
def Mode.longName : Mode → String
  | delete => "DeleteWithoutPrompting"
  | prompt => "Prompt"
  | dryRun => "DryRun"

namespace Settings

/-- A line of the inner level. -/
def innerLine (s : String) : String := "        " ++ s ++ ",\n"

/-- An optional path name. -/
def shownOption : Option String → String
  | none => "None"
  | some s => "Some(\n" ++ innerLine (Quoted.encodeName s) ++ "    )"

/-- A list of texts. -/
def shownList : List String → String
  | [] => "[]"
  | ss => "[\n" ++ String.join (ss.map fun s => innerLine (Quoted.encode s)) ++ "    ]"

/-- A setting with its name. -/
def shownField (name value : String) : String := "    " ++ name ++ ": " ++ value ++ ",\n"

/-- The settings. -/
def shown (s : Settings) : String :=
  "AppConfig \x7b\n" ++
    shownField "temp_dir" (Quoted.encodeName s.logFolder) ++
    shownField "failed_comparison_log" (Quoted.encodeName s.comparisonLog) ++
    shownField "approved_files_log" (Quoted.encodeName s.touchedLog) ++
    shownField "scan_root" (shownOption s.scanRoot) ++
    shownField "approved_pattern" (Quoted.encode s.baselineName) ++
    shownField "ignore_patterns" (shownList s.ignored) ++
    shownField "default_mode" s.mode.longName ++
    "\x7d"

end Settings

end Baseline
