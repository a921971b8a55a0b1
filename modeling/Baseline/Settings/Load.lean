import Baseline.Disk.Reading
import Baseline.Json
import Baseline.Settings.Decode
import Baseline.Settings.Environment
import Baseline.Toml.Document

/-!
# Loading settings

The settings are the defaults, under the settings file of the working directory, under the
environment. A file that cannot be read counts as missing; one that does not parse is an error, even
where the environment has the last word. A file by the bare name, without a format, stands in the
way of all others.
-/

namespace Baseline.Settings

/-- The name of the settings file, without its format. -/
def fileStem : String := "Config"

/-- A format of settings files. -/
structure FileFormat where
  /-- the name of a file of this format -/
  fileName : String
  /-- the entries of a text, if it is of this format -/
  parse? : String → Option (List (String × Value))

/-- The formats, the first of which goes before the others. Files `Config.yaml`, `Config.yml`,
`Config.ini`, `Config.ron` and `Config.json5` are settings files too, but their formats are left out
here; and which of several settings files counts is not laid down, so this order is one of those
that may be. On a disk with such a file, or with two settings files, a load is told as one of those
that may come of it. -/
def fileFormats : List FileFormat :=
  [⟨fileStem ++ ".toml", Toml.parse?⟩, ⟨fileStem ++ ".json", Json.parse?⟩]

/-- The entries that a file of a format makes. -/
def fileEntries (format : FileFormat) (content : Bytes) :
    Except SettingsError (List (String × Value)) :=
  match Utf8.decode? content with
  | none => .ok []
  | some text =>
    match format.parse? text with
    | none => .error (.malformedFile format.fileName)
    | some entries => .ok (Value.placedEntries (.file format.fileName) entries)

variable {m : Type → Type} [Monad m]

/-- Whether a path leads to a file. -/
def isFile (v : View m) (p : Path) : m Bool := do
  match ← (v.targetKind p).run with
  | .ok .file => return true
  | _ => return false

/-- The entries of the first file that is there. -/
def firstFile (v : View m) : List FileFormat → m (Except SettingsError (List (String × Value)))
  | [] => return .ok []
  | format :: formats => do
    let p := Path.ofString format.fileName
    if ← isFile v p then
      match ← (v.content p).run with
      | .ok content => return fileEntries format content
      | .error _ => return .ok []
    else firstFile v formats

/-- The entries of the settings file. -/
def fileLayer (v : View m) : m (Except SettingsError (List (String × Value))) := do
  if ← isFile v (Path.ofString fileStem) then return .ok [] else firstFile v fileFormats

/-- The settings of a run in an environment. -/
def load (v : View m) (environment : List (String × String)) :
    m (Except SettingsError Settings) := do
  match ← fileLayer v with
  | .error e => return .error e
  | .ok file => return ofLayers [file, Environment.settings environment]

end Baseline.Settings
