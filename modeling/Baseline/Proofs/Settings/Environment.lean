import Baseline.Proofs.Disk.Still
import Baseline.Proofs.Disk.Tree
import Baseline.Proofs.Number.Digits
import Baseline.Settings.Load

/-!
# Text settings from the environment

A variable is text, and so is what a path or a pattern is set to. On the way from the one to the
other the text is read as a truth value, an integer or a floating point number if it is one, and
written out again. `spelled` is what comes out, and `Verbatim` says for which texts that is the text
itself: those that no reader takes, and those that are already spelled as they would be written.

`load_textSetting` is the law for a whole load: whatever the text is the settings can be had, they
are the defaults but for the one setting, and that setting is the text exactly if it is `Verbatim`.
-/

namespace Baseline

namespace Environment

open Value (folded)

variable {text : String}

/-! ## One text -/

/-- A text as it is written out again after reading. -/
def spelled (text : String) : String :=
  match readAtom? text with
  | some (.truth b) => if b then "true" else "false"
  | some (.whole n) => toString n
  | some (.real x) => x.text
  | _ => text

/-- A text that reading and writing out again leaves as it is. -/
structure Verbatim (text : String) : Prop where
  /-- a truth value is in lower case -/
  truth : folded text = "true" ∨ folded text = "false" → folded text = text
  /-- an integer of 64 bits is plain -/
  whole : ∀ n, signedValue? text.toList = some n → fits64 n = true → PlainInteger text.toList
  /-- any other number is spelled as the nearest one of 53 binary digits is written -/
  real : (∀ n, signedValue? text.toList = some n → fits64 n = false) →
    ∀ x, Binary64.ofText? text.toList = some x → x.text = text

/-- What a text says by itself: the first reader that takes it decides. -/
theorem readAtom?_cases (text : String) :
    (∃ b, folded text = (if b then "true" else "false") ∧ readAtom? text = some (.truth b)) ∨
      (¬ (folded text = "true" ∨ folded text = "false") ∧
        ((∃ n, signedValue? text.toList = some n ∧ fits64 n = true ∧
            readAtom? text = some (.whole n)) ∨
          ((∀ n, signedValue? text.toList = some n → fits64 n = false) ∧
            readAtom? text = (Binary64.ofText? text.toList).map .real))) := by
  by_cases htrue : folded text = "true"
  · exact .inl ⟨true, htrue, by simp [readAtom?, htrue]⟩
  by_cases hfalse : folded text = "false"
  · exact .inl ⟨false, hfalse, by simp [readAtom?, hfalse]⟩
  refine .inr ⟨not_or.2 ⟨htrue, hfalse⟩, ?_⟩
  cases hwhole : (signedValue? text.toList).filter fits64 with
  | some n =>
    obtain ⟨hvalue, hfits⟩ := Option.filter_eq_some_iff.1 hwhole
    exact .inl ⟨n, hvalue, hfits, by simp [readAtom?, htrue, hfalse, hwhole]⟩
  | none =>
    refine .inr ⟨fun n hvalue => ?_, by simp [readAtom?, htrue, hfalse, hwhole]⟩
    simpa using Option.filter_eq_none_iff.1 hwhole n hvalue

/-- The texts that come out as they went in are those and no others. -/
theorem spelled_eq_iff (text : String) : spelled text = text ↔ Verbatim text := by
  rcases readAtom?_cases text with ⟨b, hword, hatom⟩ |
    ⟨hword, ⟨n, hvalue, hfits, hatom⟩ | ⟨hnone, hatom⟩⟩
  · have hspelled : spelled text = folded text := by rw [spelled, hatom, hword]
    rw [hspelled]
    refine ⟨fun hsame => ⟨fun _ => hsame, ?_, ?_⟩, fun hverbatim => hverbatim.truth ?_⟩
    · -- neither word is a number
      intro n hvalue
      rw [← hsame, hword] at hvalue
      cases b <;> cases hvalue
    · intro _ x hvalue
      rw [← hsame, hword] at hvalue
      cases b <;> cases hvalue
    · cases b
      · exact .inr hword
      · exact .inl hword
  · have hspelled : spelled text = toString n := by rw [spelled, hatom]
    rw [hspelled, ← String.toList_inj, toString_eq_iff hvalue]
    refine ⟨fun hplain => ⟨fun h => absurd h hword, fun _ _ _ => hplain, fun hnone => ?_⟩,
      fun hverbatim => hverbatim.whole n hvalue hfits⟩
    exact absurd hfits (by simp [hnone n hvalue])
  · cases hreal : Binary64.ofText? text.toList with
    | none =>
      have hspelled : spelled text = text := by rw [spelled, hatom, hreal]; rfl
      refine ⟨fun _ => ⟨fun h => absurd h hword, fun n hvalue hfits => ?_, fun _ x hx => ?_⟩,
        fun _ => hspelled⟩
      · exact absurd hfits (by simp [hnone n hvalue])
      · rw [hreal] at hx
        cases hx
    | some x =>
      have hspelled : spelled text = x.text := by rw [spelled, hatom, hreal]; rfl
      rw [hspelled]
      refine ⟨fun hsame => ⟨fun h => absurd h hword, fun n hvalue hfits => ?_, fun _ y hy => ?_⟩,
        fun hverbatim => hverbatim.real hnone x hreal⟩
      · exact absurd hfits (by simp [hnone n hvalue])
      · rw [hreal] at hy
        exact Option.some.inj hy ▸ hsame

/-! ## Texts that no reader takes -/

/-- A character that stands in no truth value and in no number, such as a slash or a star. -/
structure Foreign (c : Char) : Prop where
  /-- it is an ASCII character -/
  ascii : c.toNat < 128
  /-- it is no letter and no digit -/
  notAlphanum : c.isAlphanum = false
  /-- and no sign or point -/
  notMark : c ∉ ['+', '-', '.']

instance (c : Char) : Decidable (Foreign c) :=
  decidable_of_iff (c.toNat < 128 ∧ c.isAlphanum = false ∧ c ∉ ['+', '-', '.'])
    ⟨fun h => ⟨h.1, h.2.1, h.2.2⟩, fun h => ⟨h.ascii, h.notAlphanum, h.notMark⟩⟩

namespace Foreign

variable {c : Char} {cs : List Char}

theorem isDigit_eq (h : Foreign c) : c.isDigit = false := by
  have halphanum := h.notAlphanum
  rw [Char.isAlphanum, Bool.or_eq_false_iff] at halphanum
  exact halphanum.2

theorem toLower_eq (h : Foreign c) : c.toLower = c := by
  have halpha : (c.isUpper || c.isLower) = false := (Bool.or_eq_false_iff.1 h.notAlphanum).1
  have hupper : ¬ (c.val ≥ 'A'.val ∧ c.val ≤ 'Z'.val) :=
    of_decide_eq_false (Bool.or_eq_false_iff.1 halpha).1
  exact dif_neg hupper

theorem ne_of_isAlphanum (h : Foreign c) {other : Char} (hother : other.isAlphanum = true) :
    c ≠ other := by
  rintro rfl
  exact Bool.noConfusion (h.notAlphanum.symm.trans hother)

/-- In lower case it is where it was. -/
theorem mem_ofChars (h : Foreign c) (hmem : c ∈ cs) (before : List Char) :
    c ∈ Lowercase.ofChars before cs := by
  induction cs generalizing before with
  | nil => exact absurd hmem List.not_mem_nil
  | cons first cs ih =>
    rw [Lowercase.ofChars]
    rcases List.mem_cons.1 hmem with rfl | hmem
    · have hsigma : c ≠ 'Σ' := by
        rintro rfl
        exact absurd h.ascii (by decide)
      rw [if_neg hsigma, Lowercase.ofChar, if_pos h.ascii, h.toLower_eq]
      exact List.mem_append_left _ List.mem_cons_self
    · exact List.mem_append_right _ (ih hmem _)

theorem mem_takeSign (h : Foreign c) (hmem : c ∈ cs) : c ∈ (takeSign cs).2 := by
  have hmark := h.notMark
  rcases takeSign_cases cs with ⟨ds, rfl, hsign⟩ | ⟨ds, rfl, hsign⟩ | ⟨-, -, hsign⟩
  · rw [hsign]
    exact (List.mem_cons.1 hmem).resolve_left fun heq => hmark (by simp [heq])
  · rw [hsign]
    exact (List.mem_cons.1 hmem).resolve_left fun heq => hmark (by simp [heq])
  · rwa [hsign]

/-- A text with a character that is foreign to numbers is no integer. -/
theorem signedValue?_eq_none (h : Foreign c) (hmem : c ∈ cs) : signedValue? cs = none := by
  cases hvalue : signedValue? cs with
  | none => rfl
  | some i =>
    have hdigit := (of_signedValue? hvalue).2.1 c (h.mem_takeSign hmem)
    exact Bool.noConfusion (h.isDigit_eq.symm.trans hdigit)

theorem notMem_takeWhile (h : Foreign c) (cs : List Char) : c ∉ cs.takeWhile Char.isDigit := by
  intro hmem
  have hdigit := List.all_eq_true.1 List.all_takeWhile c hmem
  exact Bool.noConfusion (h.isDigit_eq.symm.trans hdigit)

theorem mem_dropWhile (h : Foreign c) (hmem : c ∈ cs) : c ∈ cs.dropWhile Char.isDigit := by
  rw [← List.takeWhile_append_dropWhile (p := Char.isDigit) (l := cs)] at hmem
  exact (List.mem_append.1 hmem).resolve_left (h.notMem_takeWhile cs)

theorem readExponent?_eq_none (h : Foreign c) (hmem : c ∈ cs) :
    Decimal.readExponent? cs = none := by
  cases cs with
  | nil => exact absurd hmem List.not_mem_nil
  | cons first cs =>
    rw [Decimal.readExponent?]
    split
    · next hletter =>
      have hne : c ≠ first := by
        rcases (by simpa using hletter : first = 'e' ∨ first = 'E') with rfl | rfl
        · exact h.ne_of_isAlphanum (by decide)
        · exact h.ne_of_isAlphanum (by decide)
      exact h.signedValue?_eq_none ((List.mem_cons.1 hmem).resolve_left hne)
    · rfl

/-- Nor is it a decimal number, since the character stands in front of the point, behind it or in
the exponent, and is no digit anywhere. -/
theorem decimal_eq_none (h : Foreign c) (hmem : c ∈ cs) : Decimal.ofText? cs = none := by
  have hbehind := h.mem_dropWhile (h.mem_takeSign hmem)
  rw [Decimal.ofText?]
  dsimp only
  split
  · next tail htail =>
    rw [htail] at hbehind
    have hpoint : c ≠ '.' := by
      rintro rfl
      exact h.notMark (by decide)
    have hrest := h.mem_dropWhile ((List.mem_cons.1 hbehind).resolve_left hpoint)
    simp only [h.readExponent?_eq_none hrest, Option.map_none, ite_self]
  · simp only [h.readExponent?_eq_none hbehind, Option.map_none, ite_self]

theorem lowered_ne (h : Foreign c) (hmem : c ∈ cs) {word : List Char}
    (hword : word.all Char.isAlphanum = true) : Binary64.lowered cs ≠ word := by
  rintro rfl
  have hlowered : c ∈ Binary64.lowered cs := List.mem_map.2 ⟨c, hmem, h.toLower_eq⟩
  exact Bool.noConfusion (h.notAlphanum.symm.trans (List.all_eq_true.1 hword c hlowered))

/-- Nor is it one of the words for what is no number. So no reader takes it. -/
theorem ofText?_eq_none (h : Foreign c) (hmem : c ∈ cs) : Binary64.ofText? cs = none := by
  have hrest := h.mem_takeSign hmem
  rw [Binary64.ofText?]
  dsimp only
  rw [if_neg, if_neg, h.decimal_eq_none hmem]
  · rfl
  · exact h.lowered_ne hrest (by decide)
  · rintro (hinf | hinfinity)
    · exact h.lowered_ne hrest (by decide) hinf
    · exact h.lowered_ne hrest (by decide) hinfinity

end Foreign

/-- A text with such a character in it, as any path with a slash is, stays as it is. -/
theorem verbatim_of_foreign {c : Char} (hc : Foreign c) (hmem : c ∈ text.toList) :
    Verbatim text where
  truth hword := by
    have hfolded : c ∈ (folded text).toList := by
      rw [Value.folded, Lowercase.text, String.toList_ofList]
      exact hc.mem_ofChars hmem []
    have hletters : ∀ word ∈ ["true", "false"], word.toList.all Char.isAlphanum = true := by
      decide
    have hmem : folded text ∈ ["true", "false"] := by simpa using hword
    exact absurd rfl (hc.ne_of_isAlphanum (List.all_eq_true.1 (hletters _ hmem) c hfolded))
  whole n hvalue := by
    rw [hc.signedValue?_eq_none hmem] at hvalue
    cases hvalue
  real _ x hvalue := by
    rw [hc.ofText?_eq_none hmem] at hvalue
    cases hvalue

end Environment

/-! ## The text settings -/

/-- The settings that are text. -/
inductive TextSetting where
  /-- the directory of the logs -/
  | logFolder
  /-- the log of the failed comparisons -/
  | comparisonLog
  /-- the log of the touched baselines -/
  | touchedLog
  /-- where to look for baselines -/
  | scanRoot
  /-- what the name of a baseline fits -/
  | baselineName
deriving DecidableEq, Repr

namespace TextSetting

/-- The key of a setting. -/
def key : TextSetting → String
  | logFolder => "temp_dir"
  | comparisonLog => "failed_comparison_log"
  | touchedLog => "approved_files_log"
  | scanRoot => "scan_root"
  | baselineName => "approved_pattern"

/-- Settings with another text in one of them. -/
def set (setting : TextSetting) (text : String) (s : Settings) : Settings :=
  match setting with
  | logFolder => { s with logFolder := text }
  | comparisonLog => { s with comparisonLog := text }
  | touchedLog => { s with touchedLog := text }
  | scanRoot => { s with scanRoot := some text }
  | baselineName => { s with baselineName := text }

theorem set_inj {setting : TextSetting} {text other : String} {s : Settings} :
    setting.set text s = setting.set other s ↔ text = other := by
  cases setting <;> simp [set]

theorem steps_key (setting : TextSetting) :
    (KeyPath.ofKey setting.key).steps = [.name setting.key] := by
  cases setting <;> decide +kernel

theorem folded_key (setting : TextSetting) : Value.folded setting.key = setting.key := by
  cases setting <;> decide +kernel

theorem key_ne_listKey (setting : TextSetting) : setting.key ≠ Environment.listKey := by
  cases setting <;> decide

end TextSetting

namespace Environment

variable {environment : List (String × String)} {key text : String}

/-- The environment sets one setting and no other, whatever else is in it. Case does not count in
the names of the variables. -/
def OnlySets (environment : List (String × String)) (key text : String) : Prop :=
  ∃ before name behind, environment = before ++ (name, text) :: behind ∧
    Value.folded name = opening ++ key ∧
    ∀ other ∈ before ++ behind, ¬ opening.toList <+: (Value.folded other.1).toList

/-- A variable whose name begins with the opening, in any case, makes an entry under what follows.
-/
theorem setting?_eq_some {name : String} (h : Value.folded name = opening ++ key) :
    setting? name text = some (key, (readValue key text).placed .environment) := by
  have hopens : opening.toList.isPrefixOf (opening ++ key).toList = true := by
    rw [String.toList_append]
    exact List.isPrefixOf_iff_prefix.2 (List.prefix_append _ _)
  have hkey : String.ofList ((opening ++ key).toList.drop opening.length) = key := by
    rw [String.toList_append, ← String.length_toList, List.drop_left, String.ofList_toList]
  rw [setting?, h]
  dsimp only
  rw [if_pos hopens, hkey]

theorem setting?_eq_none {name : String} (h : ¬ opening.toList <+: (Value.folded name).toList) :
    setting? name text = none :=
  if_neg fun hopens => h (List.isPrefixOf_iff_prefix.1 hopens)

theorem settings_eq_foldl (environment : List (String × String)) :
    settings environment =
      (environment.filterMap fun pair => setting? pair.1 pair.2).foldl
        (fun es pair => Value.put pair.1 pair.2 es) [] :=
  rfl

/-- Where the environment sets one setting, its entries are the one for this setting, however many
other variables are there. -/
theorem settings_eq (h : OnlySets environment key text) :
    settings environment = [(key, (readValue key text).placed .environment)] := by
  obtain ⟨before, name, behind, rfl, hname, hothers⟩ := h
  have hnone (others : List (String × String))
      (hmem : ∀ other ∈ others, other ∈ before ++ behind) :
      (others.filterMap fun pair => setting? pair.1 pair.2) = [] :=
    List.filterMap_eq_nil_iff.2 fun other hother =>
      setting?_eq_none (hothers other (hmem other hother))
  have hone : (((name, text) :: behind).filterMap fun pair => setting? pair.1 pair.2) =
      (key, (readValue key text).placed .environment) ::
        behind.filterMap fun pair => setting? pair.1 pair.2 :=
    List.filterMap_cons_some (setting?_eq_some hname)
  rw [settings_eq_foldl, List.filterMap_append, hone,
    hnone before fun _ h => List.mem_append_left _ h,
    hnone behind fun _ h => List.mem_append_right _ h]
  rfl

/-- Away from the list of ignore patterns a variable is an atom, and reads as its text spelled
again. -/
theorem readValue_eq (hkey : key ≠ listKey) (text : String) :
    ∃ a, (readValue key text).placed .environment = .atom (some .environment) a ∧
      a ≠ .nothing ∧
        ∀ name, Value.asText name (.atom (some .environment) a) = .ok (spelled text) := by
  rcases readAtom?_cases text with ⟨b, -, hatom⟩ | ⟨-, ⟨n, -, -, hatom⟩ | ⟨-, hatom⟩⟩
  · exact ⟨.truth b, by rw [readValue, hatom, Value.placed], nofun,
      fun _ => by rw [spelled, hatom]; rfl⟩
  · exact ⟨.whole n, by rw [readValue, hatom, Value.placed], nofun,
      fun _ => by rw [spelled, hatom]; rfl⟩
  · cases hreal : Binary64.ofText? text.toList with
    | none =>
      rw [hreal] at hatom
      have hlist : (key == listKey) = false := beq_eq_false_iff_ne.2 hkey
      exact ⟨.text text, by simp [readValue, hatom, hlist, Value.placed], nofun,
        fun _ => by rw [spelled, hatom]; rfl⟩
    | some x =>
      rw [hreal] at hatom
      exact ⟨.real x, by simp [readValue, hatom, Value.placed], nofun,
        fun _ => by rw [spelled, hatom]; rfl⟩

end Environment

namespace Settings

variable {d : Disk} {setting : TextSetting} {text : String} {environment : List (String × String)}

theorem asText?_eq {o : Option Origin} {a : Atom} (ha : a ≠ .nothing) (name : String) :
    Value.asText? name (.atom o a) = (Value.asText name (.atom o a)).map some := by
  cases a with
  | nothing => exact absurd rfl ha
  | truth b => rfl
  | whole n => rfl
  | real x => rfl
  | text s => rfl

theorem read_self {α : Type} {entries : List (String × Value)} (key : String) (v : Value)
    (default : α) (as : Value → Except SettingsError α) :
    read ((key, v) :: entries) key default as = as v := by
  rw [read, List.lookup_cons_self]

theorem read_of_ne {α : Type} {key other : String} (h : other ≠ key) (v : Value) (default : α)
    (as : Value → Except SettingsError α) : read [(key, v)] other default as = .ok default := by
  rw [read, List.lookup_cons, beq_false_of_ne h, List.lookup_nil]

/-- One setting on its own is set in the defaults. -/
theorem ofEntries_text {o : Option Origin} {a : Atom} (ha : a ≠ .nothing)
    (htext : ∀ name, Value.asText name (.atom o a) = .ok text) :
    ofEntries [(setting.key, .atom o a)] = .ok (setting.set text .default) := by
  have htext? (name : String) : Value.asText? name (.atom o a) = .ok (some text) := by
    rw [asText?_eq ha, htext]
    rfl
  cases setting <;>
    simp [ofEntries, TextSetting.key, TextSetting.set, read_self, read_of_ne, htext, htext?, bind,
      Except.bind, pure, Except.pure]

/-- So it is as a layer over an empty one. -/
theorem ofLayers_text {o : Option Origin} {a : Atom} (ha : a ≠ .nothing)
    (htext : ∀ name, Value.asText name (.atom o a) = .ok text) :
    ofLayers [[], [(setting.key, .atom o a)]] = .ok (setting.set text .default) := by
  have hset : (Value.table none []).set setting.key (.atom o a) =
      .table none [(setting.key, .atom o a)] := by
    rw [Value.set, setting.steps_key, Value.setAlong, Value.setLast, Value.setName,
      setting.folded_key]
    rfl
  rw [← ofEntries_text ha htext, ofLayers]
  exact congrArg (fun v => ofEntries v.entries) hset

theorem firstFile_eq {formats : List FileFormat}
    (h : ∀ format ∈ formats, (isFile d.still (Path.ofString format.fileName)).run = false) :
    (firstFile d.still formats).run = .ok [] := by
  induction formats with
  | nil => rfl
  | cons format formats ih =>
    rw [firstFile, Id.run_bind, h format List.mem_cons_self]
    exact ih fun other hother => h other (List.mem_cons_of_mem _ hother)

/-- Where no settings file is there the layer is empty, whether or not a file by the bare name is in
the way. -/
theorem fileLayer_eq
    (h : ∀ format ∈ fileFormats, (isFile d.still (Path.ofString format.fileName)).run = false) :
    (fileLayer d.still).run = .ok [] := by
  rw [fileLayer, Id.run_bind]
  split
  · rfl
  · exact firstFile_eq h

/-- **Text settings from the environment.** Where there is no settings file, and the environment
sets one of the text settings and no other, the settings can be had whatever the text is, and they
are the defaults but for that one. It is the text as it is spelled again, so it is the text itself
exactly if reading and writing out leaves that alone. -/
theorem load_textSetting (d : Disk) (setting : TextSetting) (text : String)
    (environment : List (String × String))
    (hfiles : ∀ format ∈ fileFormats,
      (isFile d.still (Path.ofString format.fileName)).run = false)
    (honly : Environment.OnlySets environment setting.key text) :
    (load d.still environment).run =
        .ok (setting.set (Environment.spelled text) .default) ∧
      ((load d.still environment).run = .ok (setting.set text .default) ↔
        Environment.Verbatim text) := by
  have hload : (load d.still environment).run =
      .ok (setting.set (Environment.spelled text) .default) := by
    obtain ⟨a, hvalue, ha, htext⟩ := Environment.readValue_eq setting.key_ne_listKey text
    rw [load, Id.run_bind, fileLayer_eq hfiles]
    dsimp only
    rw [Environment.settings_eq honly, hvalue]
    exact ofLayers_text ha htext
  refine ⟨hload, ?_⟩
  rw [hload, Except.ok.injEq, TextSetting.set_inj, Environment.spelled_eq_iff]

/-- A disk with a working directory and nothing in it. -/
def emptyDisk : Disk := .laidOut ["w"] [[], ["w"]] []

/-- An environment with a directory for the logs. -/
def withFolder (folder : String) : List (String × String) :=
  [("HOME", "/root"), ("APPROVALS_TEMP_DIR", folder)]

theorem onlySets_withFolder (folder : String) :
    Environment.OnlySets (withFolder folder) TextSetting.logFolder.key folder :=
  ⟨[("HOME", "/root")], "APPROVALS_TEMP_DIR", [], rfl, by decide +kernel, by decide +kernel⟩

/-- A path arrives as it is. -/
theorem load_textSetting_path :
    (∀ format ∈ fileFormats,
        (isFile emptyDisk.still (Path.ofString format.fileName)).run = false) ∧
      Environment.OnlySets (withFolder "build/007") TextSetting.logFolder.key "build/007" ∧
      (load emptyDisk.still (withFolder "build/007")).run =
        .ok { Settings.default with logFolder := "build/007" } := by
  have hfiles : ∀ format ∈ fileFormats,
      (isFile emptyDisk.still (Path.ofString format.fileName)).run = false := by decide +kernel
  have hforeign : Environment.Foreign '/' := by decide
  exact ⟨hfiles, onlySets_withFolder _, (load_textSetting emptyDisk .logFolder "build/007" _ hfiles
    (onlySets_withFolder _)).2.2 (Environment.verbatim_of_foreign hforeign (by decide))⟩

/-- A name of digits is an integer on the way, and loses the zeros in front. -/
theorem load_leadingZeros :
    Environment.OnlySets (withFolder "007") TextSetting.logFolder.key "007" ∧
      (load emptyDisk.still (withFolder "007")).run =
        .ok { Settings.default with logFolder := "7" } ∧
      (load emptyDisk.still (withFolder "007")).run ≠
        .ok { Settings.default with logFolder := "007" } := by
  have hload : (load emptyDisk.still (withFolder "007")).run =
      .ok { Settings.default with logFolder := "7" } := by decide +kernel
  refine ⟨onlySets_withFolder _, hload, ?_⟩
  rw [hload]
  decide

end Settings

end Baseline
