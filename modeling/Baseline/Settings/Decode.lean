import Baseline.Settings
import Baseline.Settings.KeyPath

/-!
# From values to settings

Each setting takes what reads as its type: any atom reads as text, a mode is a name in any case or a
table with one such name, a list of texts has to be a list. What is not set keeps its default, and
what is no setting is passed over. The first setting that cannot be read is the error.
-/

namespace Baseline

/-- Why settings cannot be had. -/
inductive SettingsError where
  /-- a settings file that does not parse -/
  | malformedFile (name : String)
  /-- a value that does not read as text -/
  | notText (found key : String) (origin : Option Origin)
  /-- a value that is no list where a list is wanted -/
  | notList (found : String)
  /-- a name that is no mode -/
  | unknownMode (name : String)
  /-- a value that cannot name a mode -/
  | notMode
deriving DecidableEq, Repr

namespace SettingsError

/-- What a reader sees of the error. -/
def message : SettingsError → String
  | malformedFile name => "the file cannot be read as settings in " ++ name
  | notText found key origin =>
    "invalid type: " ++ found ++ ", expected a string for key `" ++ key ++ "`" ++
      (match origin with
        | some o => " in " ++ o.text
        | none => "")
  | notList found => "invalid type: " ++ found ++ ", expected a sequence"
  | unknownMode name => "enum DeletionMode does not have variant constructor " ++ name
  | notMode =>
    "value of enum DeletionMode should be represented by either string or table with " ++
      "exactly one key"

end SettingsError

namespace Value

/-- The value as text. The key is for the message. -/
def asText (key : String) : Value → Except SettingsError String
  | .atom _ (.text s) => .ok s
  | .atom _ (.truth b) => .ok (if b then "true" else "false")
  | .atom _ (.whole n) => .ok (toString n)
  | .atom _ (.real x) => .ok x.text
  | v => .error (.notText v.description key v.origin)

/-- The value as text, if it is there at all. -/
def asText? (key : String) : Value → Except SettingsError (Option String)
  | .atom _ .nothing => .ok none
  | v => (v.asText key).map some

/-- Items as texts. The first has the given place in the list. -/
def itemTexts (key : String) : Nat → List Value → Except SettingsError (List String)
  | _, [] => .ok []
  | place, v :: vs => do
    let s ← v.asText (key ++ "[" ++ toString place ++ "]")
    let more ← itemTexts key (place + 1) vs
    return s :: more

/-- The value as a list of texts. -/
def asTexts (key : String) : Value → Except SettingsError (List String)
  | .list _ vs => itemTexts key 0 vs
  | v => .error (.notList v.description)

/-- The mode of a name in any case. -/
def modeNamed (name : String) : Except SettingsError Mode :=
  match Mode.ofName? (folded name) with
  | some m => .ok m
  | none => .error (.unknownMode name)

/-- The value as a mode. -/
def asMode : Value → Except SettingsError Mode
  | .atom _ (.text name) => modeNamed name
  | .table _ [(name, _)] => modeNamed name
  | _ => .error .notMode

end Value

namespace Settings

/-- A setting by name, or its default. -/
def read {α : Type} (entries : List (String × Value)) (key : String) (default : α)
    (as : Value → Except SettingsError α) : Except SettingsError α :=
  match entries.lookup key with
  | none => .ok default
  | some v => as v

/-- The settings among some entries. -/
def ofEntries (entries : List (String × Value)) : Except SettingsError Settings := do
  let d := Settings.default
  let text (key default : String) := read entries key default (Value.asText key)
  let logFolder ← text "temp_dir" d.logFolder
  let comparisonLog ← text "failed_comparison_log" d.comparisonLog
  let touchedLog ← text "approved_files_log" d.touchedLog
  let scanRoot ← read entries "scan_root" d.scanRoot (Value.asText? "scan_root")
  let baselineName ← text "approved_pattern" d.baselineName
  let ignored ← read entries "ignore_patterns" d.ignored (Value.asTexts "ignore_patterns")
  let mode ← read entries "default_mode" d.mode Value.asMode
  return { logFolder, comparisonLog, touchedLog, scanRoot, baselineName, ignored, mode }

/-- The settings that layers of entries make, a later layer over an earlier. -/
def ofLayers (layers : List (List (String × Value))) : Except SettingsError Settings :=
  let whole := layers.flatten.foldl (fun (root : Value) (key, v) => root.set key v) (.table none [])
  ofEntries whole.entries

end Settings

end Baseline
