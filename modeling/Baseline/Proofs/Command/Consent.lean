import Baseline.Proofs.Command.Options
import Baseline.Proofs.Command.Run
import Baseline.Proofs.Desk.Input
import Baseline.Proofs.Settings.DefaultMode
import Baseline.Proofs.Text.Line

/-!
# Consent

Which runs of the command line can change the disk, short of those that accept. A run that asks for
nothing, for help or for the settings changes nothing, and neither does one without a request or
without settings (`state_obey_idle`). A sweep changes something only where that is allowed
(`allowed_of_changed`), and what allows it is said in the arguments, in the settings or in the first
line of the input (`consent_of_allowed`). The words of the arguments are spelled out, and of the
settings only the default mode counts, with the place that it comes from (`run_consent`).
-/

namespace Baseline.Command

variable {d : Disk} {environment : EnvFile.Variables} {arguments : List String}

/-- What agrees to a deletion, where the sweep was asked for with the options `tokens` and `mode` is
the default mode. -/
inductive Consent (tokens : List String) (mode : Mode) (input : Input) : Prop where
  /-- the option that says yes -/
  | given (agrees : tokens = ["--yes"] ∨ tokens = ["-y"])
  /-- the mode that deletes, by its name -/
  | named (agrees : tokens = ["--mode", "delete"] ∨ tokens = ["--mode=delete"])
  /-- no option, and a default mode that deletes -/
  | settled (silent : tokens = []) (agrees : mode = .delete)
  /-- a mode that asks, by its name or by default, and the first line of the input -/
  | answered (asks : tokens = ["--mode", "prompt"] ∨ tokens = ["--mode=prompt"] ∨
        tokens = [] ∧ mode = .prompt)
      {answer : String} (agrees : answer ∈ ["Y", "y", ""])
      (first : Line.StartsWith input.left answer)

/-- A run that does nothing to the disk: there is no request or no settings, or the request is for
something to read. -/
def Idle (d : Disk) (environment : EnvFile.Variables) (arguments : List String) : Prop :=
  (∃ e, Request.ofArguments arguments = .error e) ∨ (∃ e, settingsOn d environment = .error e) ∨
    ∃ request, Request.ofArguments arguments = .ok request ∧
      (request = .nothing ∨ request = .settings ∨ ∃ topic, request = .help topic)

/-- An idle run ends after its reading: whatever stops it, be it the arguments, the settings or a
request for something to read, comes before anything is changed, and only remarks are left. -/
theorem state_obey_idle (hlog : logFile environment = none)
    (hidle : Idle d environment arguments) {t : Traced (Desk Disk Input)}
    (ht : t.state.store = d) :
    ((obey deskMachine environment arguments).run t).2.state = t.state := by
  cases hrequest : Request.ofArguments arguments with
  | error e =>
    rw [obey, hrequest]
    rfl
  | ok request =>
    by_cases hhelp : ∃ topic, request = .help topic
    · obtain ⟨topic, rfl⟩ := hhelp
      rw [obey, hrequest]
      rfl
    · have hhelp (topic : Topic) : request ≠ .help topic := fun heq => hhelp ⟨topic, heq⟩
      cases hsettings : settingsOn d environment with
      | error e =>
        obtain ⟨remarks, -, hrun⟩ := run_obey_error hlog hrequest hhelp hsettings ht
        rw [hrun]
      | ok settings =>
        obtain ⟨remarks, -, hrun⟩ := run_obey_ok hrequest hhelp hsettings ht
        rw [hrun]
        rcases hidle with ⟨e, he⟩ | ⟨e, he⟩ | ⟨other, hother, hreads⟩
        · cases hrequest.symm.trans he
        · cases hsettings.symm.trans he
        · obtain rfl := Except.ok.inj (hrequest.symm.trans hother)
          rcases hreads with rfl | rfl | ⟨topic, heq⟩
          · rfl
          · rfl
          · exact absurd heq (hhelp topic)

/-- A run that may do something is one for a sweep or to accept. -/
theorem sweep_of_not_idle (haccept : Request.ofArguments arguments ≠ .ok .accept)
    (hbusy : ¬ Idle d environment arguments) :
    ∃ options settings, Request.ofArguments arguments = .ok (.sweep options) ∧
      settingsOn d environment = .ok settings := by
  cases hrequest : Request.ofArguments arguments with
  | error e => exact absurd (.inl ⟨e, hrequest⟩) hbusy
  | ok request =>
    cases hsettings : settingsOn d environment with
    | error e => exact absurd (.inr (.inl ⟨e, hsettings⟩)) hbusy
    | ok settings =>
      cases request with
      | sweep options => exact ⟨options, settings, rfl, rfl⟩
      | accept => exact absurd hrequest haccept
      | nothing => exact absurd (.inr (.inr ⟨_, hrequest, .inl rfl⟩)) hbusy
      | settings => exact absurd (.inr (.inr ⟨_, hrequest, .inr (.inl rfl)⟩)) hbusy
      | help topic => exact absurd (.inr (.inr ⟨_, hrequest, .inr (.inr ⟨topic, rfl⟩)⟩)) hbusy

/-- An answer is the first line that is left of the input. -/
theorem startsWith_of_answer {input : Input} {answer : String}
    (h : (Input.next.run.run input).1 = .ok answer) : Line.StartsWith input.left answer := by
  rw [Input.run_next] at h
  cases htaken : (Line.next input.left).1 with
  | ended | illFormed =>
    rw [htaken] at h
    cases h
  | line text =>
    rw [htaken] at h
    obtain rfl : text = answer := Except.ok.inj h
    exact Line.startsWith_of_next htaken

/-- A sweep that changes the disk is one that is allowed. -/
theorem allowed_of_changed (hlog : logFile environment = none) {settings : Settings}
    {options : SweepOptions} {t : Traced (Desk Disk Input)}
    (h : ((perform deskMachine environment settings (.sweep options)).run t).2.state.store ≠
      t.state.store) :
    ∃ found, Sweep.Allowed Input.next (options.resolve settings.mode) found t.state := by
  have hperform : perform deskMachine environment settings (.sweep options) =
      conclude deskMachine environment (Session.sweep Desk.diskView
        { Desk.diskOutside Input.next with note := note deskMachine environment } settings
        (options.resolve settings.mode)) := rfl
  rw [hperform] at h
  cases hsurvey : t.state.store.survey settings with
  | error e =>
    obtain ⟨remarks, -, hsession⟩ := Session.run_sweep_of_survey_error Input.next
      (options.resolve settings.mode) (reads_note hlog) hsurvey
    obtain ⟨exit, more, -, hrun⟩ := run_conclude hlog hsession
    rw [hrun] at h
    exact absurd rfl h
  | ok survey =>
    obtain ⟨touched, found⟩ := survey
    obtain ⟨remarks, -, c, result, after, haccounts, hsession⟩ := Session.run_sweep_of_survey
      Input.next (options.resolve settings.mode) (reads_note hlog) hsurvey
    obtain ⟨exit, more, -, hrun⟩ := run_conclude hlog hsession
    rw [hrun] at h
    refine ⟨strays touched (found.filterMap Path.text?), ?_⟩
    by_contra hnot
    exact h (haccounts.untouched hnot).2

/-- What allows a sweep is said in the arguments, in the settings or in the input. -/
theorem consent_of_allowed {tokens : List String} {options : SweepOptions} {settings : Settings}
    {found : List String} {desk : Desk Disk Input} (hgives : Gives tokens options)
    (hallowed : Sweep.Allowed Input.next (options.resolve settings.mode) found desk) :
    Consent tokens settings.mode desk.answers := by
  obtain ⟨-, -, hconsent⟩ := hallowed
  -- every way to give options leaves one mode that is in force
  have hdelete (h : options.resolve settings.mode = .delete) :
      Consent tokens settings.mode desk.answers := by
    cases hgives with
    | nothing => exact .settled rfl h
    | dryRun => cases h
    | yes => exact .given (.inl rfl)
    | letter => exact .given (.inr rfl)
    | @mode value m hnamed =>
      obtain rfl : m = .delete := h
      obtain rfl := eq_name_of_modeOption? hnamed
      exact .named (.inl rfl)
    | @modeIs value m hnamed =>
      obtain rfl : m = .delete := h
      obtain rfl := eq_name_of_modeOption? hnamed
      exact .named (.inr rfl)
  have hprompt (h : options.resolve settings.mode = .prompt) :
      tokens = ["--mode", "prompt"] ∨ tokens = ["--mode=prompt"] ∨
        tokens = [] ∧ settings.mode = .prompt := by
    cases hgives with
    | nothing => exact .inr (.inr ⟨rfl, h⟩)
    | dryRun => cases h
    | yes => cases h
    | letter => cases h
    | @mode value m hnamed =>
      obtain rfl : m = .prompt := h
      obtain rfl := eq_name_of_modeOption? hnamed
      exact .inl rfl
    | @modeIs value m hnamed =>
      obtain rfl : m = .prompt := h
      obtain rfl := eq_name_of_modeOption? hnamed
      exact .inr (.inl rfl)
  rcases hconsent with hmode | ⟨hasks, answer, hagrees, hanswer⟩
  · exact hdelete hmode
  · exact .answered (hprompt hasks.1) hagrees (startsWith_of_answer hanswer)

/-- The words that ask for a dry run. -/
def dryWords : List String := ["--dry-run", "dry-run", "--mode=dry-run"]

/-- What agrees to a deletion is no wish for a dry run. -/
theorem Consent.notDry {tokens rest : List String} {mode : Mode} {input : Input}
    (h : Consent tokens mode input) (hends : Ends rest) :
    ∀ argument ∈ sweepName :: (tokens ++ rest), argument ∉ dryWords := by
  have hrest : ∀ argument ∈ rest, argument ∉ dryWords := by
    rcases hends with rfl | rfl
    · exact fun _ hmem => absurd hmem List.not_mem_nil
    · decide
  have htokens : ∀ argument ∈ tokens, argument ∉ dryWords := by
    cases h with
    | given hagrees => rcases hagrees with rfl | rfl <;> decide
    | named hagrees => rcases hagrees with rfl | rfl <;> decide
    | settled hsilent _ => exact hsilent ▸ fun _ hmem => absurd hmem List.not_mem_nil
    | answered hasks _ _ => rcases hasks with rfl | rfl | ⟨rfl, -⟩ <;> decide
  refine List.forall_mem_cons.2 ⟨by decide, fun argument hmem => ?_⟩
  exact (List.mem_append.1 hmem).elim (htokens argument) (hrest argument)

/-- Options that are given by no word for a dry run ask for none. -/
theorem Gives.notDry {tokens : List String} {options : SweepOptions} (h : Gives tokens options)
    (hwords : ∀ argument ∈ tokens, argument ∉ dryWords) :
    options.dryRun = false ∧ options.mode ≠ some .dryRun := by
  cases h with
  | nothing => exact ⟨rfl, nofun⟩
  | dryRun => exact absurd (by decide) (hwords _ List.mem_cons_self)
  | yes => exact ⟨rfl, nofun⟩
  | letter => exact ⟨rfl, nofun⟩
  | @mode value m hnamed =>
    refine ⟨rfl, fun hdry => ?_⟩
    obtain rfl : m = .dryRun := Option.some.inj hdry
    obtain rfl := eq_name_of_modeOption? hnamed
    exact absurd (by decide) (hwords _ (List.mem_cons_of_mem _ List.mem_cons_self))
  | @modeIs value m hnamed =>
    refine ⟨rfl, fun hdry => ?_⟩
    obtain rfl : m = .dryRun := Option.some.inj hdry
    obtain rfl := eq_name_of_modeOption? hnamed
    exact absurd (by decide) (hwords _ List.mem_cons_self)

/-- **Consent at the command line.** For every disk, all arguments, environments and inputs, where
no log file is asked for: a run that does not accept and leaves another disk than it found was
accepted as a sweep, with no word for a dry run, and something agreed to the deletion: the options,
the default mode, or the first line of the input. The default mode is that of the environment, or
where the environment is silent and `Config.toml` the only settings file, that of `Config.toml`, or
to ask. At most one option is ever accepted, so none overrules another. And a run without a request
or settings, or for something to read, leaves the disk as it is. -/
theorem run_consent {input : Input} {room : Option Nat} {exit : Exit}
    {t' : Traced (Desk Disk Input)}
    (hlookup : (environmentOn d environment).lookup "LOG_FILE_PATH" = none)
    (hrun : (run deskMachine environment arguments).run (.start ⟨d, input, room⟩) = (exit, t')) :
    (Request.ofArguments arguments ≠ .ok .accept → t'.state.store ≠ d →
      ∃ tokens rest options settings,
        arguments = "remove-abandoned" :: (tokens ++ rest) ∧ (rest = [] ∨ rest = ["--"]) ∧
        Request.ofArguments arguments = .ok (.sweep options) ∧
        options.dryRun = false ∧ options.mode ≠ some .dryRun ∧
        (∀ argument ∈ arguments, argument ∉ ["--dry-run", "dry-run", "--mode=dry-run"]) ∧
        settingsOn d (environmentOn d environment) = .ok settings ∧
        Settings.Provenance d (environmentOn d environment) settings.mode ∧
        Consent tokens settings.mode input) ∧
    (∀ options, Request.ofArguments arguments = .ok (.sweep options) →
      options.mode.isSome.toNat + options.dryRun.toNat + options.yes.toNat ≤ 1) ∧
    (Idle d (environmentOn d environment) arguments → t'.state.store = d) := by
  have hlog : logFile (environmentOn d environment) = none := by
    rw [logFile, logVariable, hlookup]
    rfl
  obtain ⟨remarks, -, hobey⟩ := run_eq_obey (t := .start ⟨d, input, room⟩) arguments hlog rfl
  rw [hrun] at hobey
  have hidle (h : Idle d (environmentOn d environment) arguments) : t'.state.store = d := by
    have hstate := state_obey_idle hlog h (t := ⟨⟨d, input, room⟩, [] ++ remarks⟩) rfl
    rw [Traced.start] at hobey
    rw [← hobey] at hstate
    exact congrArg Desk.store hstate
  refine ⟨fun haccept hchanged => ?_, fun options hoptions => ?_, hidle⟩
  · have hbusy : ¬ Idle d (environmentOn d environment) arguments := fun h => hchanged (hidle h)
    obtain ⟨options, settings, hrequest, hsettings⟩ := sweep_of_not_idle haccept hbusy
    obtain ⟨tokens, rest, harguments, hends, hgives⟩ := ofArguments_sweep_iff.1 hrequest
    obtain ⟨more, -, hperform⟩ := run_obey_ok hrequest nofun hsettings
      (t := ⟨⟨d, input, room⟩, [] ++ remarks⟩) rfl
    have hsweep : ((perform deskMachine (environmentOn d environment) settings
        (.sweep options)).run ⟨⟨d, input, room⟩, [] ++ remarks ++ more⟩).2.state.store ≠ d := by
      rw [hperform.symm.trans hobey.symm]
      exact hchanged
    obtain ⟨found, hallowed⟩ := allowed_of_changed hlog hsweep
    have hconsent := consent_of_allowed hgives hallowed
    have hwords := hconsent.notDry hends
    obtain ⟨hdry, hmode⟩ := hgives.notDry fun token htoken =>
      hwords token (List.mem_cons_of_mem _ (List.mem_append_left rest htoken))
    exact ⟨tokens, rest, options, settings, harguments, hends, hrequest, hdry, hmode,
      harguments ▸ hwords, hsettings, Settings.provenance_of_load hsettings, hconsent⟩
  · obtain ⟨tokens, rest, -, -, hgives⟩ := ofArguments_sweep_iff.1 hoptions
    exact hgives.count_le_one

/-- A disk with one abandoned baseline, and a settings file by the given name. -/
def deserted (name text : String) : Disk :=
  .laidOut ["w"] [[], ["w"], ["w", ".approval_tests_temp"]]
    [(["w", "a.approved.txt"], "a"), (["w", ".approval_tests_temp", ".approved_files.log"], ""),
      (["w", name], text)]

/-- What is left of such a disk without the baseline. -/
def swept (d : Disk) : Disk := d.without [["w", "a.approved.txt"].map Utf8.encode]

/-- A disk whose `Config.toml` says to delete. -/
def hasty : Disk := deserted "Config.toml" "default_mode = 'delete'\n"

/-- An environment that says to ask. -/
def asking : EnvFile.Variables := [("APPROVALS_DEFAULT_MODE", "prompt")]

/-- An input that agrees, and goes on. -/
def agreement : Input := ⟨Utf8.encode "y\r\nn\n"⟩

set_option maxRecDepth 10000 in
/-- The environment goes before `Config.toml`, so the baseline is gone only after the answer. -/
theorem run_consent_answered :
    (environmentOn hasty asking).lookup "LOG_FILE_PATH" = none ∧
      ((run deskMachine asking ["remove-abandoned"]).run
        (.start ⟨hasty, agreement, none⟩)).2.state.store = swept hasty ∧
      Settings.TomlAlone hasty ∧
      ∃ tokens rest options settings,
        ["remove-abandoned"] = "remove-abandoned" :: (tokens ++ rest) ∧
        (rest = [] ∨ rest = ["--"]) ∧
        Request.ofArguments ["remove-abandoned"] = .ok (.sweep options) ∧
        options.dryRun = false ∧ options.mode ≠ some .dryRun ∧
        (∀ argument ∈ ["remove-abandoned"],
          argument ∉ ["--dry-run", "dry-run", "--mode=dry-run"]) ∧
        settingsOn hasty (environmentOn hasty asking) = .ok settings ∧
        Settings.Provenance hasty (environmentOn hasty asking) settings.mode ∧
        Consent tokens settings.mode agreement := by
  have hlookup : (environmentOn hasty asking).lookup "LOG_FILE_PATH" = none := by decide +kernel
  have hgone : ((run deskMachine asking ["remove-abandoned"]).run
      (.start ⟨hasty, agreement, none⟩)).2.state.store = swept hasty := by decide +kernel
  have hchanged : swept hasty ≠ hasty := by decide +kernel
  refine ⟨hlookup, hgone, by decide +kernel, ?_⟩
  exact (run_consent hlookup (Prod.eta _).symm).1 (by decide +kernel) (hgone ▸ hchanged)

/-- A disk without a `Config.toml`, whose `Config.json` says to delete. -/
def foreign : Disk := deserted "Config.json" "\x7b\"default_mode\": \"delete\"\x7d"

set_option maxRecDepth 10000 in
/-- A settings file of another format counts as well. The environment is empty and there is no
`Config.toml`, so the default mode should be to ask, and the input is empty. Still the baseline is
gone. -/
theorem not_consented_otherFormat :
    (environmentOn foreign []).lookup "LOG_FILE_PATH" = none ∧
      (∀ file, Settings.TomlSays foreign file →
        Settings.effectiveMode file (environmentOn foreign []) = .ok .prompt) ∧
      ¬ Consent [] .prompt ⟨[]⟩ ∧
      ((run deskMachine [] ["remove-abandoned"]).run
        (.start ⟨foreign, ⟨[]⟩, none⟩)).2.state.store = swept foreign ∧
      swept foreign ≠ foreign := by
  refine ⟨by decide +kernel, ?_, ?_, by decide +kernel, by decide +kernel⟩
  · intro file hsays
    cases hsays with
    | nothing => decide +kernel
    | text hreads hparses =>
      have hmissing : Settings.tomlText? foreign = none := by decide +kernel
      cases hmissing.symm.trans hreads
  · intro hconsent
    cases hconsent with
    | given hagrees => rcases hagrees with h | h <;> cases h
    | named hagrees => rcases hagrees with h | h <;> cases h
    | settled _ hagrees => cases hagrees
    | answered _ _ hfirst => exact hfirst.nonempty rfl

end Baseline.Command
