import Baseline.Command.Arguments
import Baseline.Lookup
import Baseline.Proofs.Steps
import Mathlib.Data.List.Basic

/-!
# The options of a sweep

Which arguments ask for a sweep, and with which options. At most one option is accepted, so there
are few ways to give one (`Gives`), and they are all that is accepted (`ofArguments_sweep_iff`).

What an argument does to the reading is told once, in `Takes`. The reading keeps a value back until
the next argument comes, and `Reading.weight` counts the options so far and such a value with them.
Every option adds to it (`weight_takeLong`, `weight_takeShort`), and an accepted reading ends with at
most one (`weight_le_one`), so behind the first option nothing more can come.
-/

namespace Baseline.Command

/-- The arguments that give options to a sweep. -/
inductive Gives : List String → SweepOptions → Prop where
  /-- no option -/
  | nothing : Gives [] .none
  /-- the strays are only to be listed -/
  | dryRun : Gives ["--dry-run"] ⟨none, true, false⟩
  /-- the strays are to be deleted without a question -/
  | yes : Gives ["--yes"] ⟨none, false, true⟩
  /-- the same by a letter -/
  | letter : Gives ["-y"] ⟨none, false, true⟩
  /-- a mode by name -/
  | mode {value : String} {m : Mode} (named : modeOption? value = some m) :
      Gives ["--mode", value] ⟨some m, false, false⟩
  /-- a mode by name, in one argument -/
  | modeIs {value : String} {m : Mode} (named : modeOption? value = some m) :
      Gives ["--mode=" ++ value] ⟨some m, false, false⟩

/-- Nothing follows, or only the separator that stands before arguments of another kind. -/
def Ends (arguments : List String) : Prop := arguments = [] ∨ arguments = ["--"]

/-! ## What an argument looks like -/

theorem Shape.eq_of_separator {argument : String} (h : Shape.of argument = .separator) :
    argument = "--" := by
  rw [Shape.of] at h
  split at h
  · next heq => exact String.toList_inj.1 heq
  · next cs heq =>
    dsimp only at h
    split at h <;> cases h
  · cases h
  · cases h
  · cases h

/-- How a value is written behind the name of its option. -/
def valueText : Option String → List Char
  | none => []
  | some value => '=' :: value.toList

/-- An argument that looks like a long option is spelled as one: two dashes, the name, and behind an
equals sign the value if there is one. The shape forgets nothing of the text. -/
theorem Shape.toList_of_long {argument name : String} {value : Option String}
    (h : Shape.of argument = .long name value) :
    argument.toList = '-' :: '-' :: (name.toList ++ valueText value) := by
  rw [Shape.of] at h
  split at h
  · cases h
  · next cs _ heq =>
    dsimp only at h
    have hcut := List.takeWhile_append_dropWhile (p := (· != '=')) (l := cs)
    split at h
    · next hdrop =>
      cases h
      rw [hdrop, List.append_nil] at hcut
      rw [heq, hcut, valueText, List.append_nil, String.toList_ofList]
    · next head behind hdrop =>
      cases h
      obtain rfl : head = '=' := by
        have hhead := List.head?_dropWhile_not (· != '=') cs
        rw [hdrop] at hhead
        simpa using hhead
      rw [hdrop] at hcut
      rw [heq, valueText, String.toList_ofList, String.toList_ofList, hcut]
  · cases h
  · cases h
  · cases h

/-- An argument that looks like short options is one dash and its letters, of which there is at
least one, since a lone dash is plain. -/
theorem Shape.toList_of_short {argument : String} {letters : List Char}
    (h : Shape.of argument = .short letters) : argument.toList = '-' :: letters ∧ letters ≠ [] := by
  rw [Shape.of] at h
  split at h
  · cases h
  · dsimp only at h
    split at h <;> cases h
  · cases h
  · next cs _ hne heq =>
    cases h
    exact ⟨heq, hne⟩
  · cases h

/-! ## How much is read -/

namespace Reading

variable {r r' : Reading} {o : SweepOptions}

/-- How many options are read, a value that is kept back included. -/
def weight (r : Reading) : Nat := r.options.count + if r.pending = .nothing then 0 else 1

/-- A mode is taken only where none was taken before, and it is one of those that can be named. So a
second mode is a conflict even if it is the same. -/
theorem of_takeMode {value : String} (h : r.takeMode value = .ok r') :
    ∃ m, modeOption? value = some m ∧ r.options.mode = none ∧
      r' = ⟨{ r.options with mode := some m }, .nothing⟩ := by
  rw [takeMode] at h
  split at h
  · cases h
  · next hnone =>
    split at h
    · cases h
    · next m hm => exact ⟨m, hm, by simpa using hnone, (Except.ok.inj h).symm⟩

/-- Taking a mode adds one option and leaves no value waiting. -/
theorem count_of_takeMode {value : String} (h : r.takeMode value = .ok r') :
    r'.pending = .nothing ∧ r'.options.count = r.options.count + 1 := by
  obtain ⟨m, -, hnone, rfl⟩ := of_takeMode h
  refine ⟨rfl, ?_⟩
  simp only [SweepOptions.count, hnone, Option.isSome_none, Option.isSome_some, Bool.toNat_true,
    Bool.toNat_false]
  omega

/-- Once the value is looked at, it is among the options. -/
theorem of_settle (h : r.settle = .ok r') :
    r'.pending = .nothing ∧ r'.options.count = r.weight := by
  obtain ⟨options, pending⟩ := r
  cases pending with
  | nothing =>
    obtain rfl := Except.ok.inj h
    exact ⟨rfl, rfl⟩
  | wanted => cases h
  | given value => exact count_of_takeMode h

theorem weight_takeDryRun (h : r.takeDryRun = .ok r') : r'.weight = r.weight + 1 := by
  obtain ⟨settled, hsettle, h⟩ := bind_eq_ok_iff.1 h
  obtain ⟨hpending, hcount⟩ := of_settle hsettle
  split at h
  · cases h
  · next hnew =>
    obtain rfl := Except.ok.inj h
    rw [weight, if_pos hpending, ← hcount]
    simp only [SweepOptions.count, Bool.eq_false_iff.2 hnew, Bool.toNat_true, Bool.toNat_false]
    omega

theorem weight_takeYes (h : r.takeYes = .ok r') : r'.weight = r.weight + 1 := by
  obtain ⟨settled, hsettle, h⟩ := bind_eq_ok_iff.1 h
  obtain ⟨hpending, hcount⟩ := of_settle hsettle
  split at h
  · cases h
  · next hnew =>
    obtain rfl := Except.ok.inj h
    rw [weight, if_pos hpending, ← hcount]
    simp only [SweepOptions.count, Bool.eq_false_iff.2 hnew, Bool.toNat_true, Bool.toNat_false]

/-- Every option by its name adds one. A mode whose value is still to come counts already, so the
weight does not change when the value is looked at. -/
theorem weight_takeLong {name : String} {value : Option String}
    (h : r.takeLong name value = .ok (.more r')) : r'.weight = r.weight + 1 := by
  rw [takeLong.eq_def] at h
  split at h
  · obtain ⟨settled, hsettle, h⟩ := bind_eq_ok_iff.1 h
    obtain ⟨taken, htake, h⟩ := bind_eq_ok_iff.1 h
    obtain rfl := Step.more.inj (Except.ok.inj h)
    obtain ⟨hpending, hcount⟩ := count_of_takeMode htake
    rw [weight, if_pos hpending, hcount, (of_settle hsettle).2]
  · obtain ⟨settled, hsettle, h⟩ := bind_eq_ok_iff.1 h
    obtain rfl := Step.more.inj (Except.ok.inj h)
    rw [weight, ← (of_settle hsettle).2, if_neg nofun]
  · obtain ⟨taken, htake, h⟩ := bind_eq_ok_iff.1 h
    obtain rfl := Step.more.inj (Except.ok.inj h)
    exact weight_takeDryRun htake
  · obtain ⟨taken, htake, h⟩ := bind_eq_ok_iff.1 h
    obtain rfl := Step.more.inj (Except.ok.inj h)
    exact weight_takeYes htake
  · obtain ⟨settled, -, h⟩ := bind_eq_ok_iff.1 h
    cases h
  all_goals cases h

/-- So does every option by its letter. -/
theorem weight_takeShort {letters : List Char} (h : r.takeShort letters = .ok (.more r')) :
    r'.weight = r.weight + letters.length := by
  induction letters generalizing r with
  | nil =>
    obtain rfl := Step.more.inj (Except.ok.inj h)
    rfl
  | cons letter letters ih =>
    rw [takeShort.eq_def] at h
    split at h
    · next heq => cases heq
    · next heq =>
      obtain ⟨rfl, rfl⟩ := List.cons.inj heq
      obtain ⟨taken, htake, h⟩ := bind_eq_ok_iff.1 h
      rw [ih h, weight_takeYes htake, List.length_cons]
      omega
    · obtain ⟨settled, -, h⟩ := bind_eq_ok_iff.1 h
      cases h
    · cases h

/-- What the options come to is at most one. -/
theorem weight_of_finish (h : r.finish = .ok (.sweep o)) : r.weight ≤ 1 := by
  obtain ⟨settled, hsettle, h⟩ := bind_eq_ok_iff.1 h
  split at h
  · cases h
  · next hcount =>
    rw [← (of_settle hsettle).2]
    exact Nat.not_lt.1 hcount

theorem of_finish_nothing (hpending : r.pending = .nothing) (h : r.finish = .ok (.sweep o)) :
    o = r.options := by
  obtain ⟨settled, hsettle, h⟩ := bind_eq_ok_iff.1 h
  rw [settle, hpending] at hsettle
  obtain rfl := Except.ok.inj hsettle
  split at h
  · cases h
  · exact (Request.sweep.inj (Except.ok.inj h)).symm

theorem of_finish_given {value : String} (hpending : r.pending = .given value)
    (h : r.finish = .ok (.sweep o)) :
    ∃ m, modeOption? value = some m ∧ o = { r.options with mode := some m } := by
  obtain ⟨settled, hsettle, h⟩ := bind_eq_ok_iff.1 h
  rw [settle, hpending] at hsettle
  obtain ⟨m, hm, -, rfl⟩ := of_takeMode hsettle
  split at h
  · cases h
  · exact ⟨m, hm, (Request.sweep.inj (Except.ok.inj h)).symm⟩

end Reading

/-- How the first argument of a sweep is taken, where all of them are accepted. -/
inductive Takes (r : Reading) (argument : String) (arguments : List String) (o : SweepOptions) :
    Prop where
  /-- it is the separator, and the last one -/
  | separator (argument_eq : argument = "--") (last : arguments = [])
      (finish : r.finish = .ok (.sweep o))
  /-- it is an option by its name -/
  | long {name : String} {value : Option String} {r' : Reading}
      (shape : Shape.of argument = .long name value)
      (step : r.takeLong name value = .ok (.more r'))
      (rest : readSweep r' arguments = .ok (.sweep o))
  /-- it is options by their letters -/
  | short {letters : List Char} {r' : Reading} (shape : Shape.of argument = .short letters)
      (step : r.takeShort letters = .ok (.more r'))
      (rest : readSweep r' arguments = .ok (.sweep o))
  /-- it is the value that was wanted -/
  | value (wanted : r.pending = .wanted)
      (rest : readSweep { r with pending := .given argument } arguments = .ok (.sweep o))

/-- Reading inverted at its first argument. All later lemmas on accepted readings are case splits on
`Takes`, and none of them opens `readSweep` again. -/
theorem takes_of_readSweep {r : Reading} {argument : String} {arguments : List String}
    {o : SweepOptions} (h : readSweep r (argument :: arguments) = .ok (.sweep o)) :
    Takes r argument arguments o := by
  rw [readSweep] at h
  split at h
  · next hshape =>
    split at h
    · next hnil => exact .separator (Shape.eq_of_separator hshape) (List.isEmpty_iff.1 hnil) h
    · cases h
  · next hshape =>
    obtain ⟨step, hstep, h⟩ := bind_eq_ok_iff.1 h
    cases step with
    | help => cases h
    | more r' => exact .long hshape hstep h
  · next hshape =>
    obtain ⟨step, hstep, h⟩ := bind_eq_ok_iff.1 h
    cases step with
    | help => cases h
    | more r' => exact .short hshape hstep h
  · split at h
    · next hwanted => exact .value hwanted h
    · cases h

/-- A reading that is accepted comes to at most one option. -/
theorem weight_le_one {r : Reading} {arguments : List String} {o : SweepOptions}
    (h : readSweep r arguments = .ok (.sweep o)) : r.weight ≤ 1 := by
  induction arguments generalizing r with
  | nil => exact Reading.weight_of_finish h
  | cons argument arguments ih =>
    cases takes_of_readSweep h with
    | separator _ _ hfinish => exact Reading.weight_of_finish hfinish
    | long _ hstep hrest =>
      have hmore := Reading.weight_takeLong hstep
      have hle := ih hrest
      omega
    | short _ hstep hrest =>
      have hmore := Reading.weight_takeShort hstep
      have hle := ih hrest
      omega
    | value hwanted hrest =>
      -- the value that was wanted is given now, which is no more than before
      have hle := ih hrest
      rw [Reading.weight, if_neg nofun] at hle
      rw [Reading.weight, if_neg (by rw [hwanted]; exact nofun)]
      exact hle

/-- Behind one option there comes only the separator, or the value that is wanted. -/
theorem Takes.of_weight {r : Reading} {argument : String} {arguments : List String}
    {o : SweepOptions} (h : Takes r argument arguments o) (hweight : r.weight = 1) :
    (argument = "--" ∧ arguments = [] ∧ r.finish = .ok (.sweep o)) ∨ (r.pending = .wanted ∧
      readSweep { r with pending := .given argument } arguments = .ok (.sweep o)) := by
  cases h with
  | separator hargument hlast hfinish => exact .inl ⟨hargument, hlast, hfinish⟩
  | long _ hstep hrest =>
    have hmore := Reading.weight_takeLong hstep
    have hle := weight_le_one hrest
    omega
  | short hshape hstep hrest =>
    have hmore := Reading.weight_takeShort hstep
    have hle := weight_le_one hrest
    have hpos := List.length_pos_iff.2 (Shape.toList_of_short hshape).2
    omega
  | value hwanted hrest => exact .inr ⟨hwanted, hrest⟩

/-- Behind one option nothing more is accepted. Another option would add to the weight, and a value
that is not wanted is refused. -/
theorem ends_of_weight {options : SweepOptions} {pending : Pending} {arguments : List String}
    {o : SweepOptions} (hweight : Reading.weight ⟨options, pending⟩ = 1)
    (hpending : pending ≠ .wanted)
    (h : readSweep ⟨options, pending⟩ arguments = .ok (.sweep o)) :
    Ends arguments ∧ Reading.finish ⟨options, pending⟩ = .ok (.sweep o) := by
  cases arguments with
  | nil => exact ⟨.inl rfl, h⟩
  | cons argument arguments =>
    rcases (takes_of_readSweep h).of_weight hweight with ⟨rfl, rfl, hfinish⟩ | ⟨hwanted, -⟩
    · exact ⟨.inr rfl, hfinish⟩
    · exact absurd hwanted hpending

/-! ## What is accepted -/

/-- A value that is wanted comes next, in an argument of its own. -/
theorem gives_of_wanted {arguments : List String} {o : SweepOptions}
    (h : readSweep ⟨.none, .wanted⟩ arguments = .ok (.sweep o)) :
    ∃ value rest, arguments = value :: rest ∧ Ends rest ∧ Gives ["--mode", value] o := by
  cases arguments with
  | nil => cases h
  | cons argument arguments =>
    rcases (takes_of_readSweep h).of_weight rfl with ⟨-, -, hfinish⟩ | ⟨-, hrest⟩
    · cases hfinish
    · obtain ⟨hends, hfinish⟩ := ends_of_weight rfl (by rintro ⟨⟩) hrest
      obtain ⟨m, hm, rfl⟩ := Reading.of_finish_given rfl hfinish
      exact ⟨argument, arguments, rfl, hends, .mode hm⟩

/-- Options by their names. -/
theorem gives_of_takeLong {argument name : String} {value : Option String} {r : Reading}
    {arguments : List String} {o : SweepOptions} (hshape : Shape.of argument = .long name value)
    (hstep : Reading.start.takeLong name value = .ok (.more r))
    (h : readSweep r arguments = .ok (.sweep o)) :
    ∃ tokens rest, argument :: arguments = tokens ++ rest ∧ Ends rest ∧ Gives tokens o := by
  have htext := Shape.toList_of_long hshape
  rw [Reading.takeLong.eq_def] at hstep
  split at hstep
  · next value =>
    obtain ⟨settled, hsettle, hstep⟩ := bind_eq_ok_iff.1 hstep
    obtain rfl := Except.ok.inj hsettle
    obtain ⟨taken, htake, hstep⟩ := bind_eq_ok_iff.1 hstep
    obtain rfl := Step.more.inj (Except.ok.inj hstep)
    obtain ⟨m, hm, -, rfl⟩ := Reading.of_takeMode htake
    obtain ⟨hends, hfinish⟩ := ends_of_weight rfl (by rintro ⟨⟩) h
    obtain rfl := Reading.of_finish_nothing rfl hfinish
    obtain rfl : argument = "--mode=" ++ value := by
      apply String.toList_inj.1
      rw [htext, String.toList_append]
      rfl
    exact ⟨_, _, rfl, hends, .modeIs hm⟩
  · obtain ⟨settled, hsettle, hstep⟩ := bind_eq_ok_iff.1 hstep
    obtain rfl := Except.ok.inj hsettle
    obtain rfl := Step.more.inj (Except.ok.inj hstep)
    obtain ⟨value, rest, rfl, hends, hgives⟩ := gives_of_wanted h
    obtain rfl : argument = "--mode" := String.toList_inj.1 htext
    exact ⟨["--mode", value], rest, rfl, hends, hgives⟩
  · obtain rfl := Step.more.inj (Except.ok.inj hstep)
    obtain ⟨hends, hfinish⟩ := ends_of_weight rfl (by rintro ⟨⟩) h
    obtain rfl := Reading.of_finish_nothing rfl hfinish
    obtain rfl : argument = "--dry-run" := String.toList_inj.1 htext
    exact ⟨_, _, rfl, hends, .dryRun⟩
  · obtain rfl := Step.more.inj (Except.ok.inj hstep)
    obtain ⟨hends, hfinish⟩ := ends_of_weight rfl (by rintro ⟨⟩) h
    obtain rfl := Reading.of_finish_nothing rfl hfinish
    obtain rfl : argument = "--yes" := String.toList_inj.1 htext
    exact ⟨_, _, rfl, hends, .yes⟩
  all_goals cases hstep

/-- Options by their letters: there is one, and it is `y`. -/
theorem gives_of_takeShort {argument : String} {letters : List Char} {r : Reading}
    {arguments : List String} {o : SweepOptions} (hshape : Shape.of argument = .short letters)
    (hstep : Reading.start.takeShort letters = .ok (.more r))
    (h : readSweep r arguments = .ok (.sweep o)) :
    ∃ tokens rest, argument :: arguments = tokens ++ rest ∧ Ends rest ∧ Gives tokens o := by
  obtain ⟨htext, hne⟩ := Shape.toList_of_short hshape
  have hmore : r.weight = 0 + letters.length := Reading.weight_takeShort hstep
  have hle := weight_le_one h
  obtain ⟨letter, rfl⟩ : ∃ letter, letters = [letter] := by
    have hpos := List.length_pos_iff.2 hne
    exact List.length_eq_one_iff.1 (by omega)
  rw [Reading.takeShort.eq_def] at hstep
  split at hstep
  · next heq => cases heq
  · next heq =>
    obtain ⟨rfl, rfl⟩ := List.cons.inj heq
    obtain rfl := Step.more.inj (Except.ok.inj hstep)
    obtain ⟨hends, hfinish⟩ := ends_of_weight rfl (by rintro ⟨⟩) h
    obtain rfl := Reading.of_finish_nothing rfl hfinish
    obtain rfl : argument = "-y" := String.toList_inj.1 htext
    exact ⟨["-y"], arguments, rfl, hends, .letter⟩
  · cases hstep
  · cases hstep

/-- What is accepted was given in one of the few ways: the first argument decides which, and behind
it there is room for nothing but the separator. -/
theorem gives_of_readSweep {arguments : List String} {o : SweepOptions}
    (h : readSweep .start arguments = .ok (.sweep o)) :
    ∃ tokens rest, arguments = tokens ++ rest ∧ Ends rest ∧ Gives tokens o := by
  cases arguments with
  | nil =>
    obtain rfl := Reading.of_finish_nothing rfl h
    exact ⟨[], [], rfl, .inl rfl, .nothing⟩
  | cons argument arguments =>
    cases takes_of_readSweep h with
    | separator hargument hlast hfinish =>
      obtain rfl := Reading.of_finish_nothing rfl hfinish
      rw [hargument, hlast]
      exact ⟨[], ["--"], rfl, .inr rfl, .nothing⟩
    | long hshape hstep hrest => exact gives_of_takeLong hshape hstep hrest
    | short hshape hstep hrest => exact gives_of_takeShort hshape hstep hrest
    | value hwanted _ => cases hwanted

/-- No other command asks for a sweep. -/
theorem readNone_ne_sweep {request : Request} {topic : Topic} {arguments : List String}
    {o : SweepOptions} (hrequest : request ≠ .sweep o) :
    readNone request topic arguments ≠ .ok (.sweep o) := by
  intro h
  cases arguments with
  | nil => exact hrequest (Except.ok.inj h)
  | cons argument arguments =>
    rw [readNone] at h
    split at h
    · split at h
      · exact hrequest (Except.ok.inj h)
      · cases h
    all_goals cases h

theorem readHelp_ne_sweep {arguments : List String} {o : SweepOptions} :
    readHelp arguments ≠ .ok (.sweep o) := by
  intro h
  rw [readHelp.eq_def] at h
  split at h
  · cases h
  · split at h <;> cases h
  · cases h

/-- The name of the command that sweeps. -/
def sweepName : String := "remove-abandoned"

theorem eq_sweepName {name : String} (h : topics.lookup name = some .sweep) : name = sweepName := by
  have hmem := mem_of_lookup h
  simp only [topics, List.mem_cons, Prod.mk.injEq, reduceCtorEq, and_false, and_true, false_or,
    or_false, List.not_mem_nil] at hmem
  exact hmem

/-- The arguments that give a mode name one of the three. -/
theorem modeOption?_cases {value : String} {m : Mode} (h : modeOption? value = some m) :
    value = "delete" ∧ m = .delete ∨ value = "prompt" ∧ m = .prompt ∨
      value = "dry-run" ∧ m = .dryRun := by
  simpa only [List.mem_cons, Prod.mk.injEq, List.not_mem_nil, or_false] using mem_of_lookup h

/-- An option names a mode by the name that the mode is shown by. -/
theorem eq_name_of_modeOption? {value : String} {m : Mode} (h : modeOption? value = some m) :
    value = m.name := by
  rcases modeOption?_cases h with ⟨rfl, rfl⟩ | ⟨rfl, rfl⟩ | ⟨rfl, rfl⟩ <;> rfl

/-- The other direction of the grammar: every way to give options is read as these options, with or
without the separator behind it. There are finitely many such lists, and each is run. -/
theorem readSweep_of_gives {tokens rest : List String} {o : SweepOptions} (h : Gives tokens o)
    (hrest : Ends rest) : readSweep .start (tokens ++ rest) = .ok (.sweep o) := by
  cases h with
  | nothing | dryRun | yes | letter => rcases hrest with rfl | rfl <;> decide +kernel
  | mode hnamed | modeIs hnamed =>
    rcases modeOption?_cases hnamed with ⟨rfl, rfl⟩ | ⟨rfl, rfl⟩ | ⟨rfl, rfl⟩ <;>
      rcases hrest with rfl | rfl <;> decide +kernel

/-- **What asks for a sweep.** The arguments that are accepted as a sweep with some options are the
name of the command, then a way to give the options, and then nothing but perhaps the separator. -/
theorem ofArguments_sweep_iff {arguments : List String} {o : SweepOptions} :
    Request.ofArguments arguments = .ok (.sweep o) ↔
      ∃ tokens rest, arguments = sweepName :: (tokens ++ rest) ∧ Ends rest ∧ Gives tokens o := by
  constructor
  · intro h
    cases arguments with
    | nil => cases h
    | cons argument arguments =>
      rw [Request.ofArguments.eq_def] at h
      dsimp only at h
      split at h
      · next topic htopic =>
        cases topic with
        | program => cases h
        | accept => exact absurd h (readNone_ne_sweep nofun)
        | settings => exact absurd h (readNone_ne_sweep nofun)
        | help => exact absurd h readHelp_ne_sweep
        | sweep =>
          obtain rfl := eq_sweepName htopic
          obtain ⟨tokens, rest, rfl, hends, hgives⟩ := gives_of_readSweep h
          exact ⟨tokens, rest, rfl, hends, hgives⟩
      · split at h <;> cases h
  · rintro ⟨tokens, rest, rfl, hends, hgives⟩
    exact readSweep_of_gives hgives hends

/-- At most one option is accepted, so none of them ever overrules another. -/
theorem Gives.count_le_one {tokens : List String} {o : SweepOptions} (h : Gives tokens o) :
    o.count ≤ 1 := by
  cases h <;> simp [SweepOptions.count, SweepOptions.none]

end Baseline.Command
