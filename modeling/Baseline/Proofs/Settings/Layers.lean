import Baseline.Proofs.Settings.Entries
import Baseline.Proofs.Text.Utf8

/-!
# Settings layer by layer

Of each setting one value counts: what the environment says, else what the settings file says, else
the default (`effective`). The settings can be had exactly if each of these values converts to the
type of its field, and then each field is the conversion of its own value (`load_layered`).

The layers are written one after the other into one table. A later value hides an earlier one: a
table would be merged with an older one, but the environment holds no tables, and the file holds no
name twice. So in the whole table the value that counts stands under each key (`lookup_layers`).
-/

namespace Baseline

/-! ## What the environment says -/

namespace Environment

variable {environment : List (String × String)} {es : List (String × Value)}

/-- The environment speaks of the settings by their plain names, of each at most once, and all other
variables are no settings. -/
structure Plain (environment : List (String × String)) : Prop where
  /-- no variable is there twice -/
  once : NamesDiffer environment
  /-- what looks like a setting is one by its plain name -/
  plain : ∀ v ∈ environment,
    (∃ k : Setting, v.1 = k.variableName) ∨ ¬ opening.toList <+: (Value.folded v.1).toList

/-- What a text says as the value of a setting. -/
def valueOf (k : Setting) (text : String) : Value := (readValue k.key text).placed .environment

/-- No text reads as a table. -/
theorem hides_readValue (key text : String) :
    ((readValue key text).placed .environment).hides = true := by
  rw [readValue]
  cases readAtom? text with
  | some a => rfl
  | none =>
    dsimp only
    split <;> rfl

theorem hides_of_setting? {name text : String} {e : String × Value}
    (h : setting? name text = some e) : e.2.hides = true := by
  rw [setting?] at h
  dsimp only at h
  split at h
  · obtain rfl := Option.some.inj h
    exact hides_readValue _ text
  · cases h

theorem setting?_variableName (k : Setting) (text : String) :
    setting? k.variableName text = some (k.key, valueOf k text) :=
  setting?_eq_some k.folded_variableName

theorem ne_variableName {name : String} (h : ¬ opening.toList <+: (Value.folded name).toList)
    (k : Setting) : k.variableName ≠ name := by
  rintro rfl
  rw [k.folded_variableName, String.toList_append] at h
  exact h (List.prefix_append _ _)

/-- Going through the environment from the front, a setting has the value that its variable says, or
the one that was there before. By induction on the variables, of which at most one is its own. -/
theorem lookup_foldl_put (h : Plain environment) (es : List (String × Value)) (k : Setting) :
    ((environment.filterMap fun pair => setting? pair.1 pair.2).foldl
        (fun es pair => Value.put pair.1 pair.2 es) es).lookup k.key =
      ((environment.lookup k.variableName).map (valueOf k)).or (es.lookup k.key) := by
  induction environment generalizing es with
  | nil => rfl
  | cons v environment ih =>
    obtain ⟨name, text⟩ := v
    obtain ⟨hfresh, hrest⟩ := List.nodup_cons.1 h.once
    have hplain : Plain environment := ⟨hrest, fun v hv => h.plain v (List.mem_cons_of_mem _ hv)⟩
    rw [List.filterMap_cons, List.lookup_cons]
    rcases h.plain _ List.mem_cons_self with ⟨l, hname⟩ | hforeign
    · obtain rfl : name = l.variableName := hname
      rw [setting?_variableName, List.foldl_cons, ih hplain, Value.lookup_put]
      by_cases hkl : k = l
      · subst hkl
        have hnone : environment.lookup k.variableName = none := by
          rw [← Option.not_isSome_iff_eq_none, lookup_isSome_iff]
          exact hfresh
        rw [hnone, if_pos rfl, beq_self_eq_true]
        rfl
      · rw [if_neg (mt Setting.key_inj.1 hkl), beq_false_of_ne (mt Setting.variableName_inj.1 hkl)]
    · rw [setting?_eq_none hforeign, ih hplain, beq_false_of_ne (ne_variableName hforeign k)]

/-- So the entries of the environment have under the key of a setting what its variable says. -/
theorem lookup_settings (h : Plain environment) (k : Setting) :
    (settings environment).lookup k.key =
      (environment.lookup k.variableName).map (valueOf k) := by
  rw [settings_eq_foldl, lookup_foldl_put h, List.lookup_nil, Option.or_none]

theorem mem_put {name : String} {v : Value} {e : String × Value} (h : e ∈ Value.put name v es) :
    e = (name, v) ∨ e ∈ es := by
  rw [Value.put] at h
  split at h
  · obtain ⟨other, hother, rfl⟩ := List.mem_map.1 h
    split
    · exact .inl rfl
    · exact .inr hother
  · exact (List.mem_append.1 h).symm.imp_left List.mem_singleton.1

theorem namesDiffer_put (h : NamesDiffer es) (name : String) (v : Value) :
    NamesDiffer (Value.put name v es) := by
  rw [Value.put]
  split
  · exact h.replaced name v
  · next hmissing => exact h.concat (Option.not_isSome_iff_eq_none.1 hmissing) v

theorem setting?_eq_some_cases (h : Plain environment) {v : String × String}
    (hv : v ∈ environment) {e : String × Value} (he : setting? v.1 v.2 = some e) :
    ∃ k text, e = (Setting.key k, valueOf k text) := by
  obtain ⟨name, text⟩ := v
  rcases h.plain _ hv with ⟨k, hname⟩ | hforeign
  · obtain rfl : name = k.variableName := hname
    rw [setting?_variableName] at he
    exact ⟨k, text, (Option.some.inj he).symm⟩
  · rw [setting?_eq_none hforeign] at he
    cases he

/-- The environment makes entries for settings only, and no two for one. -/
theorem settings_cases (h : Plain environment) :
    NamesDiffer (settings environment) ∧
      ∀ e ∈ settings environment, ∃ k text, e = (Setting.key k, valueOf k text) := by
  rw [settings_eq_foldl]
  refine List.foldlRecOn (motive := fun es => NamesDiffer es ∧
    ∀ e ∈ es, ∃ k text, e = (Setting.key k, valueOf k text)) _ _
    ⟨List.nodup_nil, fun _ hnil => absurd hnil List.not_mem_nil⟩ ?_
  rintro es ⟨hdiffer, hes⟩ ⟨name, w⟩ hpair
  refine ⟨namesDiffer_put hdiffer name w, fun e he => ?_⟩
  rcases mem_put he with rfl | he
  · obtain ⟨v, hv, hsetting⟩ := List.mem_filterMap.1 hpair
    exact setting?_eq_some_cases h hv hsetting
  · exact hes e he

end Environment

/-! ## The value that counts -/

/-- The settings file, as values from it name it. -/
def settingsFile : Origin := .file "Config.toml"

/-- The value that counts for a setting, if anything but the default does: that of the environment,
else that of the settings file. -/
def effective (file : List (String × Value)) (environment : List (String × String)) (k : Setting) :
    Option Value :=
  match environment.lookup k.variableName with
  | some text => some (Environment.valueOf k text)
  | none => (file.lookup k.key).map (Value.placed settingsFile)

namespace Setting

/-- A value converted to the type of the field of a setting. -/
def convert (k : Setting) (v : Value) : Except SettingsError k.Field := k.ofValue v.landed

/-- The field that a value makes, or the default without one. -/
def resolve (k : Setting) : Option Value → Except SettingsError k.Field
  | some v => k.convert v
  | none => .ok (k.get .default)

end Setting

namespace Settings

variable {file : List (String × Value)} {environment : List (String × String)}

/-- In the table of both layers the value that counts stands under the key of each setting. -/
theorem lookup_layers (hdiffer : NamesDiffer file)
    (hplain : ∀ e ∈ file, ∃ k : Setting, e.1 = k.key)
    (henvironment : Environment.Plain environment) :
    ∃ entries, ofLayers [Value.placedEntries settingsFile file, Environment.settings environment] =
        ofEntries entries ∧
      ∀ k : Setting, entries.lookup k.key = (effective file environment k).map Value.landed := by
  obtain ⟨hsettingsDiffer, hsettings⟩ := Environment.settings_cases henvironment
  obtain ⟨below, hbelow, hlookup⟩ := Value.lookup_foldl_set []
    (Value.namesDiffer_placedEntries settingsFile hdiffer)
    (Value.plain_placedEntries settingsFile hplain) fun _ _ => .inl rfl
  obtain ⟨entries, habove, hwhole⟩ := Value.lookup_foldl_set below hsettingsDiffer
    (fun e he => by
      obtain ⟨k, text, rfl⟩ := hsettings e he
      exact ⟨k, rfl⟩)
    fun e he => by
      obtain ⟨k, text, rfl⟩ := hsettings e he
      exact .inr (Environment.hides_readValue k.key text)
  refine ⟨entries, ?_, fun k => ?_⟩
  · have hfold : [Value.placedEntries settingsFile file,
        Environment.settings environment].flatten.foldl (fun root e => root.set e.1 e.2)
          (Value.table none []) = .table none entries := by
      rw [List.flatten_cons, List.flatten_cons, List.flatten_nil, List.append_nil,
        List.foldl_append, hbelow, habove]
    exact congrArg (fun root => ofEntries (Value.entries root)) hfold
  · rw [hwhole, hlookup, Environment.lookup_settings henvironment, Value.lookup_placedEntries,
      effective]
    cases environment.lookup k.variableName with
    | some text => rfl
    | none => exact Option.or_none

/-- The settings file of a disk is `Config.toml` with a text; no file by the bare name stands in the
way. -/
structure FileReads (d : Disk) (text : String) : Prop where
  /-- nothing goes before it -/
  bare : (isFile d.still (Path.ofString fileStem)).run = false
  /-- it is there -/
  file : (isFile d.still (Path.ofString "Config.toml")).run = true
  /-- its text -/
  content : (d.still.content (Path.ofString "Config.toml")).run.run = .ok (Utf8.encode text)

/-- The layer of a disk with a readable `Config.toml` is what its text says, or the error that it
says nothing. -/
theorem FileReads.fileLayer_eq {d : Disk} {text : String} (h : FileReads d text) :
    (fileLayer d.still).run =
      match Toml.parse? text with
      | none => .error (.malformedFile "Config.toml")
      | some file => .ok (Value.placedEntries settingsFile file) := by
  have hname : fileStem ++ ".toml" = "Config.toml" := by decide
  have hfirst : (firstFile d.still fileFormats).run =
      fileEntries ⟨"Config.toml", Toml.parse?⟩ (Utf8.encode text) := by
    rw [fileFormats, hname, firstFile]
    dsimp only
    rw [Id.run_bind, h.file, if_pos rfl, Id.run_bind, h.content]
    rfl
  rw [fileLayer, Id.run_bind, h.bare, if_neg Bool.false_ne_true, hfirst, fileEntries,
    Utf8.decode?_encode]
  rfl

/-- What the settings file of a disk says. -/
inductive FileHolds (d : Disk) : List (String × Value) → Prop where
  /-- without a settings file, nothing -/
  | missing (h : ∀ format ∈ fileFormats,
      (isFile d.still (Path.ofString format.fileName)).run = false) : FileHolds d []
  /-- what its text says -/
  | written {text : String} {file : List (String × Value)} (hreads : FileReads d text)
      (hparse : Toml.parse? text = some file) : FileHolds d file

theorem FileHolds.namesDiffer {d : Disk} (h : FileHolds d file) : NamesDiffer file := by
  cases h with
  | missing _ => exact List.nodup_nil
  | written _ hparse => exact Toml.parse?_namesDiffer hparse

theorem FileHolds.fileLayer_eq {d : Disk} (h : FileHolds d file) :
    (fileLayer d.still).run = .ok (Value.placedEntries settingsFile file) := by
  cases h with
  | missing hmissing =>
    rw [Settings.fileLayer_eq hmissing, Value.placedEntries]
  | written hreads hparse =>
    rw [hreads.fileLayer_eq, hparse]

/-- A settings file and an environment that speak of the settings by their plain names. -/
structure Sources (d : Disk) (file : List (String × Value)) (environment : List (String × String)) :
    Prop where
  /-- the file is that of the disk -/
  held : FileHolds d file
  /-- it speaks of nothing but settings -/
  plain : ∀ e ∈ file, ∃ k : Setting, e.1 = k.key
  /-- and so does the environment -/
  named : Environment.Plain environment

variable {d : Disk}

/-- The settings are read off a table in which the values that count stand. -/
theorem Sources.load_eq (h : Sources d file environment) :
    ∃ entries, (load d.still environment).run = ofEntries entries ∧
      ∀ k : Setting, entries.lookup k.key = (effective file environment k).map Value.landed := by
  obtain ⟨entries, hlayers, hlookup⟩ :=
    lookup_layers h.held.namesDiffer h.plain h.named
  refine ⟨entries, ?_, hlookup⟩
  rw [load, Id.run_bind, h.held.fileLayer_eq]
  exact hlayers

/-- Loading gives some settings exactly if each field is what the value that counts for it converts
to. The errors of the single settings have no say in this. -/
theorem Sources.load_eq_ok_iff (h : Sources d file environment) (s : Settings) :
    (load d.still environment).run = .ok s ↔
      ∀ k : Setting, k.resolve (effective file environment k) = .ok (k.get s) := by
  obtain ⟨entries, hload, hlookup⟩ := h.load_eq
  rw [hload, ofEntries_eq_ok_iff]
  refine forall_congr' fun k => ?_
  rw [read, hlookup]
  cases effective file environment k <;> rfl

/-- A settings file that is no TOML leaves no settings, whatever the environment says. -/
theorem load_malformed {text : String} (h : FileReads d text) (hparse : Toml.parse? text = none)
    (environment : List (String × String)) :
    (load d.still environment).run = .error (.malformedFile "Config.toml") := by
  rw [load, Id.run_bind, h.fileLayer_eq, hparse]
  rfl

/-- Only the values that count have a say in the result, an error included. -/
theorem Sources.load_congr {d' : Disk} {file' : List (String × Value)}
    {environment' : List (String × String)} (h : Sources d file environment)
    (h' : Sources d' file' environment')
    (hsame : ∀ k, effective file environment k = effective file' environment' k) :
    (load d.still environment).run = (load d'.still environment').run := by
  obtain ⟨entries, hload, hlookup⟩ := h.load_eq
  obtain ⟨entries', hload', hlookup'⟩ := h'.load_eq
  rw [hload, hload']
  exact ofEntries_congr fun k => by rw [hlookup, hlookup', hsame]

/-- **Settings layer by layer.** Let the settings file and the environment speak of the settings by
their plain names, of any of them and with any values. Then the settings can be had exactly if the
value that counts for each of them converts to the type of its field, and each field is the
conversion of that value alone. So a field is the same in all loads in which the value that counts
for it is the same, whatever becomes of the others; and what the file says of settings that the
environment sets has no say in the result at all, not even in an error. -/
theorem load_layered (d : Disk) (file : List (String × Value))
    (environment : List (String × String)) (h : Sources d file environment) :
    (∀ s, (load d.still environment).run = .ok s ↔
      ∀ k : Setting, k.resolve (effective file environment k) = .ok (k.get s)) ∧
    ((∃ s, (load d.still environment).run = .ok s) ↔
      ∀ k : Setting, ∃ field, k.resolve (effective file environment k) = .ok field) ∧
    (∀ d' file' environment', Sources d' file' environment' → ∀ s s',
      (load d.still environment).run = .ok s → (load d'.still environment').run = .ok s' →
      ∀ k, effective file environment k = effective file' environment' k → k.get s = k.get s') ∧
    (∀ d' file', Sources d' file' environment →
      (∀ k : Setting, environment.lookup k.variableName = none →
        file.lookup k.key = file'.lookup k.key) →
      (load d.still environment).run = (load d'.still environment).run) := by
  refine ⟨h.load_eq_ok_iff, ?_, ?_, ?_⟩
  · constructor
    · rintro ⟨s, hs⟩ k
      exact ⟨k.get s, (h.load_eq_ok_iff s).1 hs k⟩
    · intro hconverts
      choose fields hfields using hconverts
      refine ⟨Setting.assemble fields, (h.load_eq_ok_iff _).2 fun k => ?_⟩
      rw [hfields, Setting.get_assemble]
  · intro d' file' environment' h' s s' hs hs' k hsame
    have hfield := (h.load_eq_ok_iff s).1 hs k
    rw [hsame, (h'.load_eq_ok_iff s').1 hs' k] at hfield
    exact (Except.ok.inj hfield).symm
  · intro d' file' h' hagree
    refine h.load_congr h' fun k => ?_
    rw [effective, effective]
    cases hvariable : environment.lookup k.variableName with
    | some text => rfl
    | none => rw [hagree k hvariable]

/-- A disk with a settings file. -/
def withSettings (text : String) : Disk :=
  .laidOut ["w"] [[], ["w"]] [(["w", "Config.toml"], text)]

/-- A file whose list of ignore patterns is no list. -/
def shadowedText : String :=
  "temp_dir = 7\nignore_patterns = 'none'\ndefault_mode = \x7b Dry-Run = 1 \x7d\n"

/-- An environment that has another. -/
def shadowing : List (String × String) :=
  [("HOME", "/root"), ("APPROVALS_IGNORE_PATTERNS", "*.bak,old"), ("APPROVALS_SCAN_ROOT", "src")]

/-- The settings of both. -/
def shadowedSettings : Settings :=
  { Settings.default with
    logFolder := "7", scanRoot := some "src", ignored := ["*.bak", "old"], mode := .dryRun }

theorem exists_sources_shadowed :
    ∃ file, Sources (withSettings shadowedText) file shadowing := by
  have hnames : (Toml.parse? shadowedText).map (·.map Prod.fst) =
      some ["temp_dir", "ignore_patterns", "default_mode"] := by decide +kernel
  obtain ⟨file, hparse, hfile⟩ := Option.map_eq_some_iff.1 hnames
  have hkeys : ∀ name ∈ ["temp_dir", "ignore_patterns", "default_mode"],
      ∃ k : Setting, name = k.key :=
    List.forall_mem_cons.2 ⟨⟨.text .logFolder, rfl⟩, List.forall_mem_cons.2 ⟨⟨.ignored, rfl⟩,
      List.forall_mem_singleton.2 ⟨.mode, rfl⟩⟩⟩
  refine ⟨file, .written ⟨by decide +kernel, by decide +kernel, by decide +kernel⟩ hparse,
    fun e he => hkeys e.1 (hfile ▸ List.mem_map_of_mem he), by decide, ?_⟩
  exact List.forall_mem_cons.2 ⟨.inr (by decide +kernel), List.forall_mem_cons.2
    ⟨.inl ⟨.ignored, by decide +kernel⟩, List.forall_mem_singleton.2
      (.inl ⟨.text .scanRoot, by decide +kernel⟩)⟩⟩

/-- The list in the environment counts, and that of the file is not even looked at. -/
theorem load_layered_shadowed :
    ∃ file, Sources (withSettings shadowedText) file shadowing ∧
      (load (withSettings shadowedText).still shadowing).run = .ok shadowedSettings ∧
      (load (withSettings shadowedText).still []).run = .error (.notList "string \"none\"") ∧
      ∀ k : Setting, k.resolve (effective file shadowing k) = .ok (k.get shadowedSettings) := by
  obtain ⟨file, hsources⟩ := exists_sources_shadowed
  have hload : (load (withSettings shadowedText).still shadowing).run = .ok shadowedSettings := by
    decide +kernel
  exact ⟨file, hsources, hload, by decide +kernel,
    ((load_layered (withSettings shadowedText) file shadowing hsources).1 shadowedSettings).1 hload⟩

end Settings

end Baseline
