import Baseline.Proofs.Settings.Environment
import Baseline.Proofs.Steps
import Baseline.Proofs.Toml.Names

/-!
# Settings as entries of a table

All that is said of the settings is written into one table, and the settings are read off it. What
is written under a plain name is seen under that name and no other (`lookup_setName`), so after many
writings the look-ups in the table are known (`lookup_foldl_set`). To read the settings, look-ups
under their keys are all that is needed (`ofEntries_eq_ok_iff`, `ofEntries_congr`).
-/

namespace Baseline

/-! ## The settings by name -/

/-- The settings. -/
inductive Setting where
  /-- a setting that is text -/
  | text (t : TextSetting)
  /-- what the path of an ignored entry fits -/
  | ignored
  /-- how a sweep deals with strays -/
  | mode
deriving DecidableEq, Repr

namespace Setting

/-- The key of a setting. -/
def key : Setting → String
  | text t => t.key
  | ignored => "ignore_patterns"
  | mode => "default_mode"

/-- The name of the environment variable of a setting. -/
def variableName (k : Setting) : String := "APPROVALS_" ++ k.key.map Char.toUpper

/-- The type of the field of a setting. -/
def Field : Setting → Type
  | text .scanRoot => Option String
  | text _ => String
  | ignored => List String
  | mode => Mode

/-- The field of a setting. -/
def get : (k : Setting) → Settings → k.Field
  | text .logFolder, s => s.logFolder
  | text .comparisonLog, s => s.comparisonLog
  | text .touchedLog, s => s.touchedLog
  | text .scanRoot, s => s.scanRoot
  | text .baselineName, s => s.baselineName
  | ignored, s => s.ignored
  | mode, s => s.mode

/-- The settings with given fields. -/
def assemble (fields : ∀ k : Setting, k.Field) : Settings where
  logFolder := fields (text .logFolder)
  comparisonLog := fields (text .comparisonLog)
  touchedLog := fields (text .touchedLog)
  scanRoot := fields (text .scanRoot)
  baselineName := fields (text .baselineName)
  ignored := fields ignored
  mode := fields mode

theorem get_assemble (fields : ∀ k : Setting, k.Field) (k : Setting) :
    k.get (assemble fields) = fields k := by
  rcases k with (_ | _ | _ | _ | _) | _ | _ <;> rfl

/-- A value in the table of the settings as the field of a setting. -/
def ofValue : (k : Setting) → Value → Except SettingsError k.Field
  | text .logFolder => Value.asText TextSetting.logFolder.key
  | text .comparisonLog => Value.asText TextSetting.comparisonLog.key
  | text .touchedLog => Value.asText TextSetting.touchedLog.key
  | text .scanRoot => Value.asText? TextSetting.scanRoot.key
  | text .baselineName => Value.asText TextSetting.baselineName.key
  | ignored => Value.asTexts ignored.key
  | mode => Value.asMode

/-- The setting of a key. -/
def ofKey? (key : String) : Option Setting :=
  [text .logFolder, text .comparisonLog, text .touchedLog, text .scanRoot, text .baselineName,
    ignored, mode].find? (·.key == key)

theorem ofKey?_key (k : Setting) : ofKey? k.key = some k := by
  rcases k with (_ | _ | _ | _ | _) | _ | _ <;> decide

/-- Different settings have different keys, so what is written under one is not seen under another.
-/
theorem key_inj {k l : Setting} : k.key = l.key ↔ k = l :=
  ⟨fun h => Option.some.inj (by rw [← ofKey?_key k, h, ofKey?_key]), congrArg key⟩

/-- The key of a setting is a plain name: it leads to one entry of the table and no further. -/
theorem steps_key (k : Setting) : (KeyPath.ofKey k.key).steps = [.name k.key] := by
  cases k with
  | text t => exact t.steps_key
  | ignored => decide +kernel
  | mode => decide +kernel

theorem folded_key (k : Setting) : Value.folded k.key = k.key := by
  cases k with
  | text t => exact t.folded_key
  | ignored => decide +kernel
  | mode => decide +kernel

/-- In the spelling that stands for all others the variable of a setting is the opening with its
key, so the environment and the settings file speak of the setting by the same name. -/
theorem folded_variableName (k : Setting) :
    Value.folded k.variableName = Environment.opening ++ k.key := by
  rcases k with (_ | _ | _ | _ | _) | _ | _ <;> decide +kernel

theorem variableName_inj {k l : Setting} : k.variableName = l.variableName ↔ k = l := by
  refine ⟨fun h => key_inj.1 (String.append_right_inj Environment.opening |>.1 ?_),
    congrArg variableName⟩
  rw [← folded_variableName, h, folded_variableName]

end Setting

namespace Settings

/-- The settings can be had from some entries exactly if each can be read, and then they are what is
read. -/
theorem ofEntries_eq_ok_iff {entries : List (String × Value)} {s : Settings} :
    ofEntries entries = .ok s ↔
      ∀ k : Setting, read entries k.key (k.get .default) k.ofValue = .ok (k.get s) := by
  simp only [ofEntries, bind_eq_ok_iff]
  constructor
  · rintro ⟨logFolder, hlogFolder, comparisonLog, hcomparisonLog, touchedLog, htouchedLog, scanRoot,
      hscanRoot, baselineName, hbaselineName, ignored, hignored, mode, hmode, hall⟩ k
    obtain rfl := Except.ok.inj hall
    rcases k with (_ | _ | _ | _ | _) | _ | _
    exacts [hlogFolder, hcomparisonLog, htouchedLog, hscanRoot, hbaselineName, hignored, hmode]
  · intro h
    exact ⟨_, h (.text .logFolder), _, h (.text .comparisonLog), _, h (.text .touchedLog), _,
      h (.text .scanRoot), _, h (.text .baselineName), _, h .ignored, _, h .mode, rfl⟩

/-- Only what the entries have under the keys of the settings counts. -/
theorem ofEntries_congr {entries entries' : List (String × Value)}
    (h : ∀ k : Setting, entries.lookup k.key = entries'.lookup k.key) :
    ofEntries entries = ofEntries entries' := by
  have hlogFolder : entries.lookup "temp_dir" = entries'.lookup "temp_dir" :=
    h (.text .logFolder)
  have hcomparisonLog :
      entries.lookup "failed_comparison_log" = entries'.lookup "failed_comparison_log" :=
    h (.text .comparisonLog)
  have htouchedLog : entries.lookup "approved_files_log" = entries'.lookup "approved_files_log" :=
    h (.text .touchedLog)
  have hscanRoot : entries.lookup "scan_root" = entries'.lookup "scan_root" := h (.text .scanRoot)
  have hbaselineName : entries.lookup "approved_pattern" = entries'.lookup "approved_pattern" :=
    h (.text .baselineName)
  have hignored : entries.lookup "ignore_patterns" = entries'.lookup "ignore_patterns" := h .ignored
  have hmode : entries.lookup "default_mode" = entries'.lookup "default_mode" := h .mode
  simp only [ofEntries, read, hlogFolder, hcomparisonLog, htouchedLog, hscanRoot, hbaselineName,
    hignored, hmode]

end Settings

/-! ## Writing layers into a table -/

namespace Value

variable {name key : String} {v : Value} {es : List (String × Value)}

theorem lookup_map_replaced (name : String) (v : Value) (es : List (String × Value))
    (key : String) :
    (es.map fun e => if e.1 == name then (name, v) else e).lookup key =
      if key = name then (es.lookup name).map fun _ => v else es.lookup key := by
  induction es with
  | nil => simp
  | cons e es ih =>
    obtain ⟨other, w⟩ := e
    rw [List.map_cons]
    by_cases hother : other = name
    · subst hother
      by_cases hkey : key = other
      · simp [hkey]
      · rw [if_neg hkey] at ih
        rw [if_pos BEq.rfl, List.lookup_cons, beq_false_of_ne hkey, ih, if_neg hkey,
          List.lookup_cons, beq_false_of_ne hkey]
    · rw [if_neg (by simpa using hother), List.lookup_cons, List.lookup_cons, List.lookup_cons, ih,
        beq_false_of_ne (Ne.symm hother)]
      by_cases hkey : key = name
      · subst hkey
        rw [beq_false_of_ne (Ne.symm hother)]
      · rw [if_neg hkey, if_neg hkey]

/-- What is put under a name is seen there and nowhere else. -/
theorem lookup_put (name : String) (v : Value) (es : List (String × Value)) (key : String) :
    (put name v es).lookup key = if key = name then some v else es.lookup key := by
  rw [put]
  split
  · next hthere =>
    obtain ⟨w, hw⟩ := Option.isSome_iff_exists.1 hthere
    rw [lookup_map_replaced, hw]
    rfl
  · next hmissing =>
    have hnone : es.lookup name = none := Option.not_isSome_iff_eq_none.1 hmissing
    rw [List.lookup_append, List.lookup_cons, List.lookup_nil]
    by_cases hkey : key = name
    · rw [hkey, hnone, if_pos rfl, beq_self_eq_true]
      rfl
    · rw [if_neg hkey, beq_false_of_ne hkey, Option.or_none]

/-- A value as it stands in a table where nothing was under its name. The names inside of it lose
their case, and of two that become one the values are merged. -/
def landed : Value → Value
  | .table _ incoming => merge incoming (.table none [])
  | v => v

/-- Whether a value hides an older one instead of being merged with it. -/
def hides : Value → Bool
  | .table _ _ => false
  | _ => true

/-- What is written under a plain name is seen there and nowhere else. -/
theorem lookup_setName (hname : folded name = name) (h : es.lookup name = none ∨ v.hides = true)
    (key : String) :
    (setName name v es).lookup key = if key = name then some v.landed else es.lookup key := by
  cases v with
  | atom o a =>
    rw [setName, hname, lookup_put]
    rfl
  | list o vs =>
    rw [setName, hname, lookup_put]
    rfl
  | table o incoming =>
    have hnone : es.lookup name = none := h.resolve_right Bool.false_ne_true
    rw [setName, hname, hnone, lookup_put, landed]
    rfl

/-- Values that are written under plain names, no two under one, are seen there, and what was there
before is seen elsewhere. -/
theorem lookup_foldl_set (es : List (String × Value)) {pairs : List (String × Value)}
    (hdiffer : NamesDiffer pairs) (hplain : ∀ e ∈ pairs, ∃ k : Setting, e.1 = k.key)
    (hhides : ∀ e ∈ pairs, es.lookup e.1 = none ∨ e.2.hides = true) :
    ∃ es', pairs.foldl (fun root e => root.set e.1 e.2) (table none es) = table none es' ∧
      ∀ key, es'.lookup key = ((pairs.lookup key).map landed).or (es.lookup key) := by
  induction pairs generalizing es with
  | nil => exact ⟨es, rfl, fun _ => rfl⟩
  | cons e pairs ih =>
    obtain ⟨name, v⟩ := e
    obtain ⟨hfresh, hrest⟩ := List.nodup_cons.1 hdiffer
    obtain ⟨k, rfl⟩ := hplain _ List.mem_cons_self
    have hset : (table none es).set k.key v = table none (setName k.key v es) := by
      rw [set, k.steps_key]
      rfl
    have hseen := lookup_setName k.folded_key (hhides _ List.mem_cons_self)
    have hlater (e : String × Value) (he : e ∈ pairs) :
        (setName k.key v es).lookup e.1 = none ∨ e.2.hides = true := by
      have hname : e.1 ∈ pairs.map Prod.fst := List.mem_map_of_mem he
      have hne : e.1 ≠ k.key := fun heq => hfresh (heq ▸ hname)
      rw [hseen, if_neg hne]
      exact hhides e (List.mem_cons_of_mem _ he)
    obtain ⟨es', hfold, hlookup⟩ :=
      ih _ hrest (fun e he => hplain e (List.mem_cons_of_mem _ he)) hlater
    refine ⟨es', by rw [List.foldl_cons, hset, hfold], fun key => ?_⟩
    rw [hlookup, hseen, List.lookup_cons]
    by_cases hkey : key = k.key
    · -- no later value is written under this name
      have hnone : pairs.lookup key = none := by
        rw [← Option.not_isSome_iff_eq_none, lookup_isSome_iff, hkey]
        exact hfresh
      rw [hnone, if_pos hkey, hkey, beq_self_eq_true]
      rfl
    · rw [if_neg hkey, beq_false_of_ne hkey]

theorem names_placedEntries (o : Origin) (es : List (String × Value)) :
    (placedEntries o es).map Prod.fst = es.map Prod.fst := by
  induction es with
  | nil => rw [placedEntries]
  | cons e es ih => rw [placedEntries, List.map_cons, List.map_cons, ih]

theorem namesDiffer_placedEntries (o : Origin) (h : NamesDiffer es) :
    NamesDiffer (placedEntries o es) := by
  rwa [NamesDiffer, names_placedEntries]

theorem plain_placedEntries (o : Origin) (h : ∀ e ∈ es, ∃ k : Setting, e.1 = k.key) :
    ∀ e ∈ placedEntries o es, ∃ k : Setting, e.1 = k.key := by
  intro e he
  have hname : e.1 ∈ es.map Prod.fst := names_placedEntries o es ▸ List.mem_map_of_mem he
  obtain ⟨e', he', heq⟩ := List.mem_map.1 hname
  exact heq ▸ h e' he'

/-- Where values come from has no say in where they stand. -/
theorem lookup_placedEntries (o : Origin) (es : List (String × Value)) (key : String) :
    (placedEntries o es).lookup key = (es.lookup key).map (placed o) := by
  induction es with
  | nil =>
    rw [placedEntries]
    rfl
  | cons e es ih =>
    rw [placedEntries, List.lookup_cons, List.lookup_cons, ih]
    split <;> rfl

end Value

end Baseline
