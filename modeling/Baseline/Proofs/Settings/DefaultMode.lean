import Baseline.Proofs.Settings.Layers

/-!
# The default mode

The default mode decides whether a sweep deletes without a question. So for this one setting the
layers are told apart whatever names are in them: a key may be spelled in any case, come back, or
lead into a table or a list.

What a layer says of the mode by itself is `saidMode`. Settings that can be had take their mode from
the environment, else from the settings file, else it is to ask (`effectiveMode_of_load`). That
would be plain if a later value always hid an earlier one, but a key that leads into a table adds to
what is there. So the table of both layers is compared with the one that the environment makes
alone (`Over`): of what the environment speaks of, the former has all names that the latter has
(`Covers`), and a table that names a mode has only one.
-/

namespace Baseline

/-- A key leads to a name first. A key that reads as a path begins with a name, and one that does
not is a name as a whole. So every entry of a layer is about one name of the table. -/
theorem KeyPath.exists_steps (key : String) :
    ∃ name steps, (KeyPath.ofKey key).steps = .name name :: steps := by
  rw [ofKey]
  split
  · next found hfound =>
    rw [Reader.whole] at hfound
    split at hfound
    · next steps hrun =>
      obtain rfl := Option.some.inj hfound
      simp only [readName, StateT.run_bind, StateT.run_pure, Option.bind_eq_bind,
        Option.bind_eq_some_iff] at hrun
      obtain ⟨⟨first, rest⟩, ⟨⟨letters, more⟩, -, hname⟩, ⟨⟨others, left⟩, -, hsteps⟩⟩ := hrun
      obtain ⟨rfl, -⟩ := Prod.mk.inj (Option.some.inj hname)
      obtain ⟨rfl, -⟩ := Prod.mk.inj (Option.some.inj hsteps)
      exact ⟨_, _, rfl⟩
    · cases hfound
  · exact ⟨key, [], rfl⟩

/-! ## Writing one entry -/

namespace Value

variable {u v new : Value} {es : List (String × Value)}

@[simp] theorem entries_withEntries (v : Value) (es : List (String × Value)) :
    (v.withEntries es).entries = es := by
  cases v <;> rfl

/-- What stands under a name after a value is written where some steps lead from there. -/
def landing (new : Value) : List KeyStep → Option Value → Value
  | [], old =>
    match new with
    | .table _ incoming => merge incoming (old.getD (.table none []))
    | _ => new
  | step :: steps, old => setAlong new (step :: steps) (old.getD (.atom none .nothing))

/-- Where a name comes first, one entry is put under it, and that depends on the old one alone. -/
theorem setAlong_name (new : Value) (name : String) (steps : List KeyStep) (v : Value) :
    setAlong new (.name name :: steps) v =
      v.withEntries
        (put (folded name) (landing new steps (v.entries.lookup (folded name))) v.entries) := by
  cases steps with
  | nil => cases new <;> rfl
  | cons step steps => rfl

/-- Where an index comes first the result is a list, whatever stood there and whatever is written.
No list names a mode, so nothing more has to be known of it. -/
theorem setAlong_index (new : Value) (i : Int) (steps : List KeyStep) (v : Value) :
    ∃ o vs, setAlong new (.index i :: steps) v = .list o vs := by
  cases steps <;> cases v <;> exact ⟨_, _, rfl⟩

/-- An entry is seen under the first name of its key, and all else is as it was. -/
theorem lookup_set {key first : String} {steps : List KeyStep}
    (hsteps : (KeyPath.ofKey key).steps = .name first :: steps) (new root : Value)
    (name : String) :
    (root.set key new).entries.lookup name =
      if name = folded first then
        some (landing new steps (root.entries.lookup (folded first)))
      else root.entries.lookup name := by
  rw [set, hsteps, setAlong_name, entries_withEntries, lookup_put]

/-! ## A value that has what another has -/

/-- The second value has what the first has: an atom is the same, a list is a list, and a table has
all names of the first, which has at least one and none twice. -/
inductive Covers : Value → Value → Prop where
  /-- an atom -/
  | atom (o : Option Origin) (a : Atom) : Covers (.atom o a) (.atom o a)
  /-- a list, whatever is in it -/
  | list (o o' : Option Origin) (vs vs' : List Value) : Covers (.list o vs) (.list o' vs')
  /-- a table by its names -/
  | table {o o' : Option Origin} {es es' : List (String × Value)} (some : es ≠ [])
      (differ : NamesDiffer es) (names : es.map Prod.fst ⊆ es'.map Prod.fst) :
      Covers (.table o es) (.table o' es')

/-- A table that names a mode has one name, so the other table has that name and no more. -/
theorem Covers.asMode_eq {m : Mode} (h : Covers u v) (hv : v.asMode = .ok m) :
    u.asMode = .ok m := by
  cases h with
  | atom o a => exact hv
  | list o o' vs vs' => cases hv
  | @table o o' es es' hsome hdiffer hnames =>
    obtain ⟨⟨name, w⟩, more, rfl⟩ := List.exists_cons_of_ne_nil hsome
    match es', hv with
    | [(only, w')], hv =>
      obtain rfl : name = only := List.mem_singleton.1 (hnames List.mem_cons_self)
      cases more with
      | nil => exact hv
      | cons second more =>
        have hsecond : second.1 = name :=
          List.mem_singleton.1 (hnames (List.mem_cons_of_mem _ List.mem_cons_self))
        have hfresh := (List.nodup_cons.1 hdiffer).1
        exact absurd (hsecond ▸ List.mem_cons_self) hfresh

theorem Covers.namesDiffer (h : Covers u v) : NamesDiffer u.entries := by
  cases h with
  | atom o a => exact List.nodup_nil
  | list o o' vs vs' => exact List.nodup_nil
  | table hsome hdiffer hnames => exact hdiffer

theorem Covers.names_subset (h : Covers u v) :
    u.entries.map Prod.fst ⊆ v.entries.map Prod.fst := by
  cases h with
  | atom o a => exact List.nil_subset _
  | list o o' vs vs' => exact List.nil_subset _
  | table hsome hdiffer hnames => exact hnames

theorem mem_names_put {name other : String} {w : Value} :
    other ∈ (put name w es).map Prod.fst ↔ other = name ∨ other ∈ es.map Prod.fst := by
  rw [← lookup_isSome_iff, ← lookup_isSome_iff, lookup_put]
  split
  · next heq => simp [heq]
  · next hne => simp [hne]

/-- Putting a name into both values keeps what the second has of the first. The result is a table on
both sides, even where something else stood there before, and the values under the name need not
agree. -/
theorem covers_withEntries_put (hdiffer : NamesDiffer u.entries)
    (hnames : u.entries.map Prod.fst ⊆ v.entries.map Prod.fst) (name : String) (w w' : Value) :
    Covers (u.withEntries (put name w u.entries)) (v.withEntries (put name w' v.entries)) := by
  have htable (x : Value) (es : List (String × Value)) : ∃ o, x.withEntries es = .table o es := by
    cases x <;> exact ⟨_, rfl⟩
  obtain ⟨o, hu⟩ := htable u (put name w u.entries)
  obtain ⟨o', hv⟩ := htable v (put name w' v.entries)
  rw [hu, hv]
  refine .table ?_ (Environment.namesDiffer_put hdiffer name w) fun other hother => ?_
  · intro hnil
    have hmem : name ∈ (put name w u.entries).map Prod.fst := mem_names_put.2 (.inl rfl)
    rw [hnil] at hmem
    cases hmem
  · exact mem_names_put.2 ((mem_names_put.1 hother).imp_right fun h => hnames h)

/-! ## A layer over another -/

/-- What stands under a name where a layer is written on its own, and where it is written over what
is below: nothing of its own and what is below, or two values of which the second covers the first.
-/
inductive Over (below : Option Value) : Option Value → Option Value → Prop where
  /-- the layer has not spoken of the name -/
  | silent : Over below none below
  /-- it has -/
  | said {u v : Value} (covers : Covers u v) : Over below (some u) (some v)

/-- Whatever is written, and wherever it leads, what comes of it in the one place covers what comes
of it in the other. -/
theorem Over.covers_landing {below u v : Option Value} (h : Over below u v)
    (hnew : new.hides = true) (steps : List KeyStep) :
    Covers (landing new steps u) (landing new steps v) := by
  cases steps with
  | nil =>
    cases new with
    | atom o a => exact .atom o a
    | list o vs => exact .list o o vs vs
    | table o es => cases hnew
  | cons step steps =>
    rw [landing, landing]
    cases step with
    | index i =>
      obtain ⟨o, vs, hu⟩ := setAlong_index new i steps (u.getD (.atom none .nothing))
      obtain ⟨o', vs', hv⟩ := setAlong_index new i steps (v.getD (.atom none .nothing))
      rw [hu, hv]
      exact .list o o' vs vs'
    | name name =>
      rw [setAlong_name, setAlong_name]
      cases h with
      | silent =>
        apply covers_withEntries_put
        · exact List.nodup_nil
        · exact List.nil_subset _
      | said hcovers =>
        exact covers_withEntries_put hcovers.namesDiffer hcovers.names_subset _ _ _

/-- Entries written into a value, one after the other. -/
def written (layer : List (String × Value)) (root : Value) : Value :=
  layer.foldl (fun root e => root.set e.1 e.2) root

/-- Each entry of a layer keeps the two places together, so the whole layer does. -/
theorem over_written {layer : List (String × Value)} (hhides : ∀ e ∈ layer, e.2.hides = true)
    {below : Option Value} {name : String}
    (h : Over below (u.entries.lookup name) (v.entries.lookup name)) :
    Over below ((written layer u).entries.lookup name) ((written layer v).entries.lookup name) := by
  induction layer generalizing u v with
  | nil => exact h
  | cons e layer ih =>
    obtain ⟨first, steps, hsteps⟩ := KeyPath.exists_steps e.1
    have hrest : ∀ e ∈ layer, e.2.hides = true := fun e he => hhides e (List.mem_cons_of_mem _ he)
    have hstep : Over below ((u.set e.1 e.2).entries.lookup name)
        ((v.set e.1 e.2).entries.lookup name) := by
      rw [lookup_set hsteps, lookup_set hsteps]
      by_cases hname : name = folded first
      · rw [if_pos hname, if_pos hname, ← hname]
        exact .said (h.covers_landing (hhides e List.mem_cons_self) steps)
      · rw [if_neg hname, if_neg hname]
        exact h
    exact ih hrest hstep

end Value

/-- Whatever a variable says, it hides what was said before. -/
theorem Environment.hides_settings (environment : List (String × String)) :
    ∀ e ∈ settings environment, e.2.hides = true := by
  rw [settings_eq_foldl]
  refine List.foldlRecOn
    (motive := fun (es : List (String × Value)) => ∀ e ∈ es, e.2.hides = true) _ _
    (fun _ hnil => absurd hnil List.not_mem_nil) ?_
  rintro es hes ⟨name, w⟩ hpair e he
  rcases mem_put he with rfl | he
  · obtain ⟨v, -, hsetting⟩ := List.mem_filterMap.1 hpair
    exact hides_of_setting? hsetting
  · exact hes e he

namespace Settings

variable {d : Disk} {file : List (String × Value)} {environment : List (String × String)}
  {s : Settings}

/-! ## The mode that counts -/

/-- What a layer says of the default mode by itself, if it says anything. -/
def saidMode (layer : List (String × Value)) : Option Value :=
  (Value.written layer (.table none [])).entries.lookup "default_mode"

/-- The mode that a value names. Where nothing is said, it is to ask. -/
def modeOf : Option Value → Except SettingsError Mode
  | some v => v.asMode
  | none => .ok .prompt

/-- The default mode that counts: that of the environment, else that of the settings file, else to
ask. -/
def effectiveMode (file : List (String × Value)) (environment : List (String × String)) :
    Except SettingsError Mode :=
  modeOf ((saidMode (Environment.settings environment)).or
    (saidMode (Value.placedEntries settingsFile file)))

theorem read_mode (entries : List (String × Value)) :
    read entries Setting.mode.key Mode.prompt Value.asMode =
      modeOf (entries.lookup "default_mode") := by
  rw [read, Setting.key]
  cases entries.lookup "default_mode" <;> rfl

/-- If the mode can be read off what stands over the lower layer, then it is what the upper layer
says by itself, or what the lower one says if the upper one is silent. -/
theorem modeOf_of_over {below u v : Option Value} (h : Value.Over below u v) {m : Mode}
    (hv : modeOf v = .ok m) : modeOf (u.or below) = .ok m := by
  cases h with
  | silent => exact hv
  | said hcovers => exact hcovers.asMode_eq hv

/-- Where two layers make settings, the mode is what the upper one says, else what the lower one
says, else to ask. -/
theorem modeOf_of_ofLayers {below : List (String × Value)}
    (h : ofLayers [below, Environment.settings environment] = .ok s) :
    modeOf ((saidMode (Environment.settings environment)).or (saidMode below)) = .ok s.mode := by
  have hwhole : ofLayers [below, Environment.settings environment] =
      ofEntries (Value.written (Environment.settings environment)
        (Value.written below (.table none []))).entries := by
    simp [ofLayers, Value.written]
  rw [hwhole, ofEntries_eq_ok_iff] at h
  have hover : Value.Over (saidMode below) (saidMode (Environment.settings environment))
      ((Value.written (Environment.settings environment)
        (Value.written below (.table none []))).entries.lookup "default_mode") :=
    Value.over_written (Environment.hides_settings environment) .silent
  refine modeOf_of_over hover ?_
  rw [← read_mode]
  exact h .mode

/-- Settings that can be had take their mode from the two layers, whichever file the lower one is. -/
theorem exists_layer_of_load (h : (load d.still environment).run = .ok s) :
    ∃ below, (fileLayer d.still).run = .ok below ∧
      modeOf ((saidMode (Environment.settings environment)).or (saidMode below)) = .ok s.mode := by
  rw [load, Id.run_bind] at h
  cases hlayer : (fileLayer d.still).run with
  | error e =>
    rw [hlayer] at h
    cases h
  | ok below =>
    rw [hlayer] at h
    exact ⟨below, rfl, modeOf_of_ofLayers h⟩

/-- What the environment says of the mode counts on every disk. -/
theorem mode_of_said {v : Value} (h : (load d.still environment).run = .ok s)
    (hsaid : saidMode (Environment.settings environment) = some v) : v.asMode = .ok s.mode := by
  obtain ⟨below, -, hmode⟩ := exists_layer_of_load h
  rwa [hsaid, Option.some_or] at hmode

/-! ## `Config.toml` alone -/

/-- The files that are read in place of `Config.toml` or stand in its way: that by the bare name,
and those of all other formats, also of the ones that `fileFormats` leaves out. -/
def otherFiles : List String :=
  ["Config", "Config.json", "Config.json5", "Config.yaml", "Config.yml", "Config.ini", "Config.ron"]

/-- No settings file but `Config.toml` is there. -/
def TomlAlone (d : Disk) : Prop :=
  ∀ name ∈ otherFiles, (isFile d.still (Path.ofString name)).run = false

instance (d : Disk) : Decidable (TomlAlone d) := List.decidableBAll _ otherFiles

/-- The text of `Config.toml`, if it is a file that can be read. -/
def tomlText? (d : Disk) : Option String :=
  if (isFile d.still (Path.ofString "Config.toml")).run then
    match (d.still.content (Path.ofString "Config.toml")).run.run with
    | .ok bytes => Utf8.decode? bytes
    | .error _ => none
  else none

/-- What `Config.toml` says, on a disk that may have one. -/
inductive TomlSays (d : Disk) : List (String × Value) → Prop where
  /-- without a text, nothing -/
  | nothing (missing : tomlText? d = none) : TomlSays d []
  /-- what the text says -/
  | text {text : String} {file : List (String × Value)} (reads : tomlText? d = some text)
      (parses : Toml.parse? text = some file) : TomlSays d file

theorem TomlSays.namesDiffer (h : TomlSays d file) : NamesDiffer file := by
  cases h with
  | nothing _ => exact List.nodup_nil
  | text _ hparses => exact Toml.parse?_namesDiffer hparses

/-- `Config.toml` goes before the other formats, and without it none of them is there. -/
theorem TomlAlone.fileLayer_eq (h : TomlAlone d) :
    (fileLayer d.still).run =
      match tomlText? d with
      | none => .ok []
      | some text =>
        match Toml.parse? text with
        | none => .error (.malformedFile "Config.toml")
        | some file => .ok (Value.placedEntries settingsFile file) := by
  have hbare : (isFile d.still (Path.ofString fileStem)).run = false := h _ (by decide)
  have hjson : (isFile d.still (Path.ofString "Config.json")).run = false := h _ (by decide)
  have hothers : (firstFile d.still [⟨"Config.json", Json.parse?⟩]).run = .ok [] :=
    firstFile_eq (List.forall_mem_singleton.2 hjson)
  have hformats : fileFormats = [⟨"Config.toml", Toml.parse?⟩, ⟨"Config.json", Json.parse?⟩] := rfl
  rw [fileLayer, Id.run_bind, hbare, if_neg Bool.false_ne_true, hformats, firstFile, tomlText?]
  dsimp only
  rw [Id.run_bind]
  split
  · rw [Id.run_bind]
    cases (d.still.content (Path.ofString "Config.toml")).run.run with
    | error e => rfl
    | ok bytes =>
      dsimp only
      rw [fileEntries]
      cases Utf8.decode? bytes <;> rfl
  · exact hothers

/-- **The default mode.** Where `Config.toml` is the only settings file, the mode of settings that
can be had is what the environment says, else what `Config.toml` says, else to ask, whatever names
the two speak by. -/
theorem effectiveMode_of_load (halone : TomlAlone d) (h : (load d.still environment).run = .ok s) :
    ∃ file, TomlSays d file ∧ effectiveMode file environment = .ok s.mode := by
  obtain ⟨below, hbelow, hmode⟩ := exists_layer_of_load h
  rw [halone.fileLayer_eq] at hbelow
  cases htext : tomlText? d with
  | none =>
    rw [htext] at hbelow
    obtain rfl := Except.ok.inj hbelow
    exact ⟨[], .nothing htext, hmode⟩
  | some text =>
    rw [htext] at hbelow
    dsimp only at hbelow
    cases hparse : Toml.parse? text with
    | none =>
      rw [hparse] at hbelow
      cases hbelow
    | some file =>
      rw [hparse] at hbelow
      obtain rfl := Except.ok.inj hbelow
      exact ⟨file, .text htext hparse, hmode⟩

/-! ## Plain names -/

/-- Of entries that speak of the settings by their plain names, of each once, the one under the key
of the mode says what the mode is. -/
theorem saidMode_eq {layer : List (String × Value)} (hdiffer : NamesDiffer layer)
    (hplain : ∀ e ∈ layer, ∃ k : Setting, e.1 = k.key) :
    saidMode layer = (layer.lookup "default_mode").map Value.landed := by
  obtain ⟨es, hwritten, hlookup⟩ := Value.lookup_foldl_set [] hdiffer hplain fun _ _ => .inl rfl
  rw [saidMode, Value.written, hwritten]
  exact (hlookup "default_mode").trans Option.or_none

/-- Where both layers speak by plain names, the mode that counts is that of the value that counts.
-/
theorem effectiveMode_eq (hdiffer : NamesDiffer file)
    (hplain : ∀ e ∈ file, ∃ k : Setting, e.1 = k.key)
    (henvironment : Environment.Plain environment) :
    effectiveMode file environment =
      Setting.mode.resolve (effective file environment .mode) := by
  obtain ⟨hsettingsDiffer, hsettings⟩ := Environment.settings_cases henvironment
  have hvariables : ∀ e ∈ Environment.settings environment, ∃ k : Setting, e.1 = k.key := by
    intro e he
    obtain ⟨k, text, rfl⟩ := hsettings e he
    exact ⟨k, rfl⟩
  have hsaid : saidMode (Environment.settings environment) =
      ((environment.lookup Setting.mode.variableName).map (Environment.valueOf .mode)).map
        Value.landed := by
    rw [saidMode_eq hsettingsDiffer hvariables, ← Environment.lookup_settings henvironment]
    rfl
  have hfile := saidMode_eq (Value.namesDiffer_placedEntries settingsFile hdiffer)
    (Value.plain_placedEntries settingsFile hplain)
  rw [effectiveMode, hsaid, hfile, Value.lookup_placedEntries, effective]
  cases environment.lookup Setting.mode.variableName with
  | some text => rfl
  | none =>
    rw [Setting.key]
    cases file.lookup "default_mode" <;> rfl

/-! ## Where the mode of a run comes from -/

/-- Where a mode comes from that settings were loaded with. -/
structure Provenance (d : Disk) (environment : List (String × String)) (m : Mode) : Prop where
  /-- from the environment, if that speaks of the mode at all -/
  spoken : ∀ v, saidMode (Environment.settings environment) = some v → v.asMode = .ok m
  /-- where `Config.toml` is the only settings file: from the environment, else from `Config.toml`,
  else it is to ask; and if both speak of the settings by their plain names, from the value that
  counts -/
  layered : TomlAlone d → ∃ file, TomlSays d file ∧ effectiveMode file environment = .ok m ∧
    ((∀ e ∈ file, ∃ k : Setting, e.1 = k.key) → Environment.Plain environment →
      Setting.mode.resolve (effective file environment .mode) = .ok m)

/-- Every mode that settings are loaded with comes from there. -/
theorem provenance_of_load (h : (load d.still environment).run = .ok s) :
    Provenance d environment s.mode where
  spoken _ hsaid := mode_of_said h hsaid
  layered halone := by
    obtain ⟨file, hsays, hmode⟩ := effectiveMode_of_load halone h
    refine ⟨file, hsays, hmode, fun hplain henvironment => ?_⟩
    rw [← effectiveMode_eq hsays.namesDiffer hplain henvironment]
    exact hmode

end Settings

end Baseline
