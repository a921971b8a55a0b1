import Baseline.Proofs.Desk.Run
import Baseline.Sweep

/-!
# The course of a sweep

A sweep over any store, any deleter and any source of answers, on an output that may close at any
line. Its effects come in four parts, and `Course` holds one field for each:

* the listing, as far as the output takes it;
* the question with one answer, exactly where a prompting sweep has something to delete;
* the deletions, tried in order up to the first one that fails;
* the closing lines, as far as the output takes them.

`run_course` says that this is all that a sweep does, and when each part comes. Nothing is deleted
unless `Allowed` holds: the whole listing is written, and the mode or the answer agrees.
-/

namespace Baseline.Sweep

/-- What a sweep does, part by part, in the order in which the parts come. -/
structure Course where
  /-- the lines of the listing that are written -/
  listed : List String
  /-- whether the question is written and one answer wanted -/
  asks : Bool
  /-- the deletions that are tried -/
  tried : List String
  /-- the lines that are written at the end -/
  closing : List String

/-- The effects of a course in order. -/
def Course.events (c : Course) : List Event :=
  c.listed.map .said ++ (if c.asks then [.said question, .asked] else []) ++
    c.tried.map .deleting ++ c.closing.map .said

/-- Read off its trace, the deletions of a course are those that it tries. -/
theorem Course.deletions_events (c : Course) : c.events.filterMap Event.deletion? = c.tried := by
  have hsaid (lines : List String) : (lines.map Event.said).filterMap Event.deletion? = [] :=
    List.filterMap_eq_nil_iff.2 fun event hevent => by
      obtain ⟨line, -, rfl⟩ := List.mem_map.1 hevent
      rfl
  have hasks :
      (if c.asks then [.said question, .asked] else []).filterMap Event.deletion? = [] := by
    split <;> rfl
  have htried : (c.tried.map Event.deleting).filterMap Event.deletion? = c.tried := by
    rw [List.filterMap_map]
    exact List.filterMap_some
  rw [Course.events, List.filterMap_append, List.filterMap_append, List.filterMap_append, hsaid,
    hasks, htried, hsaid, List.append_nil, List.append_nil, List.nil_append]

/-- The lines of a course: the listing, the question if it is put, and the closing lines. -/
theorem Course.lines_events (c : Course) : c.events.filterMap Event.line? =
    c.listed ++ (if c.asks then [question] else []) ++ c.closing := by
  have hsaid (lines : List String) : (lines.map Event.said).filterMap Event.line? = lines := by
    rw [List.filterMap_map]
    exact List.filterMap_some
  have hasks : (if c.asks then [.said question, .asked] else []).filterMap Event.line? =
      if c.asks then [question] else [] := by
    split <;> rfl
  have htried : (c.tried.map Event.deleting).filterMap Event.line? = [] := by
    simp [Event.line?]
  rw [Course.events, List.filterMap_append, List.filterMap_append, List.filterMap_append, hsaid,
    hasks, htried, hsaid, List.append_nil]

/-- A course wants an answer once if it puts the question, and never otherwise. -/
theorem Course.count_asked_events (c : Course) :
    c.events.count .asked = if c.asks then 1 else 0 := by
  have hsaid (lines : List String) : (lines.map Event.said).count .asked = 0 :=
    List.count_eq_zero.2 (by simp)
  have htried : (c.tried.map Event.deleting).count .asked = 0 := List.count_eq_zero.2 (by simp)
  have hasks : (if c.asks then [.said question, .asked] else []).count Event.asked =
      if c.asks then 1 else 0 := by
    split <;> rfl
  rw [Course.events, List.count_append, List.count_append, List.count_append, hsaid, hasks, htried,
    hsaid, Nat.zero_add, Nat.add_zero]

section

variable {σ ι : Type}

/-- A question is put: the sweep prompts, there is something to delete, and the output takes the
whole listing and the question behind it. -/
def Asks (mode : Mode) (found : List String) (room : Option Nat) : Prop :=
  mode = .prompt ∧ found ≠ [] ∧ Fits room ((listing found).length + 1)

/-- The answers that agree to a deletion. -/
def agreeing : List String := ["Y", "y", ""]

/-- A deletion is allowed: there is something to delete, the whole listing is written, and either
the mode asks for no consent, or the question is put and the answer agrees. -/
def Allowed (next : ExceptT IoError (StateM ι) String) (mode : Mode) (found : List String)
    (before : Desk σ ι) : Prop :=
  found ≠ [] ∧ Fits before.room (listing found).length ∧
    (mode = .delete ∨ Asks mode found before.room ∧
      ∃ answer ∈ agreeing, (next.run.run before.answers).1 = .ok answer)

/-- A deletion is spared: the whole listing is written, and there is nothing to delete, or the mode
never deletes, or the question is put and the answer does not agree. -/
def Spared (next : ExceptT IoError (StateM ι) String) (mode : Mode) (found : List String)
    (before : Desk σ ι) : Prop :=
  Fits before.room (listing found).length ∧
    (found = [] ∨ mode = .dryRun ∨ Asks mode found before.room ∧
      ∃ answer, answer ∉ agreeing ∧ (next.run.run before.answers).1 = .ok answer)

/-- The output does not take the whole listing, or not the question behind it. -/
def CutShort (mode : Mode) (found : List String) (room : Option Nat) : Prop :=
  ¬ Fits room (listing found).length ∨
    mode = .prompt ∧ found ≠ [] ∧ ¬ Fits room ((listing found).length + 1)

/-- The closing lines are written as far as there is room, and the sweep succeeds if all are. -/
def Closes (room : Option Nat) (lines : List String) (value : Sweep) (closing : List String)
    (result : Except Error Sweep) : Prop :=
  closing = taken room lines ∧
    result = if Fits room lines.length then .ok value else .error (.io .outputClosed)

namespace Course

/-- The room behind the listing and the question. -/
def roomLeft (c : Course) (found : List String) (room : Option Nat) : Option Nat :=
  roomAfter room ((listing found).length + if c.asks then 1 else 0)

/-- `c` is the course of a sweep that finds `found` on the desk `before`, and leaves the desk
`after` with the result `result`. -/
structure Accounts (delete : String → ExceptT IoError (StateM σ) Unit)
    (next : ExceptT IoError (StateM ι) String) (mode : Mode) (found : List String)
    (before : Desk σ ι) (result : Except Error Sweep) (after : Desk σ ι) (c : Course) : Prop where
  /-- the listing is written as far as there is room -/
  listed : c.listed = taken before.room (listing found)
  /-- the question and the one answer belong to a prompting sweep with something to delete -/
  asks : c.asks = true ↔ Asks mode found before.room
  /-- no other answer is used up -/
  answers : after.answers =
    if c.asks then (next.run.run before.answers).2 else before.answers
  /-- nothing is deleted unless that is allowed -/
  untouched : ¬ Allowed next mode found before → c.tried = [] ∧ after.store = before.store
  /-- what is allowed is deleted in order up to the first failure, which ends the sweep; without
  one the closing lines give the number of the files -/
  deletes : Allowed next mode found before → ∃ ended,
    Deletions delete found before.store c.tried ended after.store ∧
      (ended = .ok () → Closes (c.roomLeft found before.room) (deletedLines found.length)
        ⟨found, found.length⟩ c.closing result) ∧
      ∀ e, ended = .error e → c.closing = [] ∧ result = .error (.io e)
  /-- a sweep that spares everything says so -/
  spares : Spared next mode found before →
    Closes (c.roomLeft found before.room) [keptLine] ⟨found, 0⟩ c.closing result
  /-- a listing or a question that cannot be written ends the sweep -/
  cutShort : CutShort mode found before.room →
    c.closing = [] ∧ result = .error (.io .outputClosed)
  /-- an answer that does not come ends the sweep -/
  unanswered : Asks mode found before.room → ∀ e, (next.run.run before.answers).1 = .error e →
    c.closing = [] ∧ result = .error (.io e)

end Course

/-! ## Which ends exclude which -/

variable {move : String → String → ExceptT IoError (StateM σ) Unit}
  {delete : String → ExceptT IoError (StateM σ) Unit} {next : ExceptT IoError (StateM ι) String}
  {mode : Mode} {found : List String} {before : Desk σ ι}

/-- What is spared is not allowed: the three ways to spare exclude both ways to allow. -/
theorem Spared.not_allowed (h : Spared next mode found before) :
    ¬ Allowed next mode found before := by
  rintro ⟨hne, -, hconsent⟩
  rcases h.2 with hnil | hdry | ⟨hasks, answer, hrefuses, hanswer⟩
  · exact hne hnil
  · rcases hconsent with hdelete | ⟨⟨hprompt, -⟩, -⟩
    · exact Mode.noConfusion (hdry.symm.trans hdelete)
    · exact Mode.noConfusion (hdry.symm.trans hprompt)
  · rcases hconsent with hdelete | ⟨-, answer', hagrees, hanswer'⟩
    · exact Mode.noConfusion (hasks.1.symm.trans hdelete)
    · obtain rfl : answer = answer' := Except.ok.inj (hanswer.symm.trans hanswer')
      exact hrefuses hagrees

theorem Spared.not_cutShort (h : Spared next mode found before) :
    ¬ CutShort mode found before.room := by
  rintro (hcut | ⟨hprompt, hne, hcut⟩)
  · exact hcut h.1
  · rcases h.2 with hnil | hdry | ⟨hasks, -⟩
    · exact hne hnil
    · exact Mode.noConfusion (hdry.symm.trans hprompt)
    · exact hcut hasks.2.2

theorem Spared.answered (h : Spared next mode found before) (hasks : Asks mode found before.room)
    {e : IoError} : (next.run.run before.answers).1 ≠ .error e := by
  intro herr
  rcases h.2 with hnil | hdry | ⟨-, answer, -, hanswer⟩
  · exact hasks.2.1 hnil
  · exact Mode.noConfusion (hdry.symm.trans hasks.1)
  · exact Except.noConfusion rfl rfl (heq_of_eq (hanswer.symm.trans herr))

theorem Allowed.not_cutShort (h : Allowed next mode found before) :
    ¬ CutShort mode found before.room := by
  rintro (hcut | ⟨hprompt, -, hcut⟩)
  · exact hcut h.2.1
  · rcases h.2.2 with hdelete | ⟨hasks, -⟩
    · exact Mode.noConfusion (hdelete.symm.trans hprompt)
    · exact hcut hasks.2.2

/-- A question that is put fits behind its listing. -/
theorem CutShort.not_asks (h : CutShort mode found before.room) :
    ¬ Asks mode found before.room := by
  intro hasks
  rcases h with hcut | ⟨-, -, hcut⟩
  · exact hcut (fits_add.1 hasks.2.2).1
  · exact hcut hasks.2.2

theorem Allowed.answered (h : Allowed next mode found before) (hasks : Asks mode found before.room)
    {e : IoError} : (next.run.run before.answers).1 ≠ .error e := by
  intro herr
  rcases h.2.2 with hdelete | ⟨-, answer, -, hanswer⟩
  · exact Mode.noConfusion (hdelete.symm.trans hasks.1)
  · exact Except.noConfusion rfl rfl (heq_of_eq (hanswer.symm.trans herr))

/-- One of the four always holds. They are told apart by the room that is left, the mode and the
answer, so every sweep comes under one clause of its account. -/
theorem allowed_or_spared_or (next : ExceptT IoError (StateM ι) String) (mode : Mode)
    (found : List String) (before : Desk σ ι) :
    Allowed next mode found before ∨ Spared next mode found before ∨
      CutShort mode found before.room ∨
      Asks mode found before.room ∧ ∃ e, (next.run.run before.answers).1 = .error e := by
  -- in the order in which a sweep comes to know: the output, the finds, the mode, the answer
  by_cases hlist : Fits before.room (listing found).length
  · by_cases hne : found = []
    · exact .inr (.inl ⟨hlist, .inl hne⟩)
    · cases mode with
      | delete => exact .inl ⟨hne, hlist, .inl rfl⟩
      | dryRun => exact .inr (.inl ⟨hlist, .inr (.inl rfl)⟩)
      | prompt =>
        by_cases hquestion : Fits before.room ((listing found).length + 1)
        · have hasks : Asks .prompt found before.room := ⟨rfl, hne, hquestion⟩
          rcases hanswer : (next.run.run before.answers).1 with e | answer
          · exact .inr (.inr (.inr ⟨hasks, e, rfl⟩))
          · by_cases hagrees : answer ∈ agreeing
            · exact .inl ⟨hne, hlist, .inr ⟨hasks, answer, hagrees, hanswer⟩⟩
            · exact .inr (.inl ⟨hlist, .inr (.inr ⟨hasks, answer, hagrees, hanswer⟩)⟩)
        · exact .inr (.inr (.inl (.inr ⟨rfl, hne, hquestion⟩)))
  · exact .inr (.inr (.inl (.inl hlist)))

theorem not_allowed_dryRun : ¬ Allowed next .dryRun found before := by
  rintro ⟨-, -, hdelete | ⟨hasks, -⟩⟩
  · cases hdelete
  · cases hasks.1

namespace Course.Accounts

variable {c : Course} {result : Except Error Sweep} {after : Desk σ ι}

/-- Only what is found is deleted, and in the order in which it is found. -/
theorem tried_prefix (h : c.Accounts delete next mode found before result after) :
    c.tried <+: found := by
  by_cases hallowed : Allowed next mode found before
  · obtain ⟨ended, hdeletions, -, -⟩ := h.deletes hallowed
    exact hdeletions.tried_prefix
  · rw [(h.untouched hallowed).1]
    exact List.nil_prefix

/-- A deletion is only ever tried where it is allowed. This is consent, read off the account of a
course. -/
theorem allowed_of_tried (h : c.Accounts delete next mode found before result after)
    (htried : c.tried ≠ []) : Allowed next mode found before := by
  by_contra hnot
  exact htried (h.untouched hnot).1

/-- What is allowed is tried to the end, or up to the first deletion that fails, which ends the
sweep. -/
theorem tried_of_allowed (h : c.Accounts delete next mode found before result after)
    (hallowed : Allowed next mode found before) :
    c.tried = found ∨
      ∃ gone path behind store e, found = gone ++ path :: behind ∧ c.tried = gone ++ [path] ∧
        Deletions delete gone before.store gone (.ok ()) store ∧
        (delete path).run.run store = (.error e, after.store) ∧
        c.closing = [] ∧ result = .error (.io e) := by
  obtain ⟨ended, hdeletions, -, herror⟩ := h.deletes hallowed
  cases ended with
  | ok u => exact .inl (hdeletions.tried_eq rfl)
  | error e =>
    obtain ⟨gone, path, behind, store, hfound, htried, hgone, hfails⟩ :=
      hdeletions.tried_eq_of_error rfl
    obtain ⟨hclosing, hresult⟩ := herror e rfl
    exact .inr ⟨gone, path, behind, store, e, hfound, htried, hgone, hfails, hclosing, hresult⟩

end Course.Accounts

/-! ## The parts of a run -/

theorem agrees_iff (answer : String) : agrees answer = true ↔ answer ∈ agreeing := by
  simp [agrees, agreeing, or_assoc]

variable (move delete next) in
/-- Lines at the end of a sweep, and what it gives. -/
theorem run_closing (lines : List String) (value : Sweep) (t : Traced (Desk σ ι)) :
    ∃ closing result after, Closes t.state.room lines value closing result ∧
      (do failing ((deskOutside move delete next).sayAll lines); return value :
        ExceptT Error (StateM (Traced (Desk σ ι))) Sweep).run.run t =
        (result, ⟨after, t.events ++ closing.map .said⟩) ∧
      after.store = t.state.store ∧ after.answers = t.state.answers := by
  refine ⟨_, _, { t.state with room := roomAfter t.state.room lines.length }, ⟨rfl, rfl⟩, ?_,
    rfl, rfl⟩
  have h := run_sayAll move delete next lines t
  by_cases hfit : Fits t.state.room lines.length
  · rw [if_pos hfit] at h ⊢
    rw [run_bind_ok (run_failing_ok h)]
    rfl
  · rw [if_neg hfit] at h ⊢
    rw [run_bind_error (run_failing_error h)]

theorem say_eq_sayAll (o : Outside (StateM (Traced (Desk σ ι)))) (line : String) :
    o.say line = o.sayAll [line] := by
  simp [Outside.sayAll]

variable (move delete next) in
/-- The deletions and the lines behind them. -/
theorem run_deleting (found : List String) (t : Traced (Desk σ ι)) :
    ∃ tried ended closing result after,
      Deletions delete found t.state.store tried ended after.store ∧
      (ended = .ok () → Closes t.state.room (deletedLines found.length) ⟨found, found.length⟩
        closing result) ∧
      (∀ e, ended = .error e → closing = [] ∧ result = .error (.io e)) ∧
      after.answers = t.state.answers ∧
      (do
        failing ((deskOutside move delete next).deleteAll found)
        failing ((deskOutside move delete next).sayAll (deletedLines found.length))
        return ⟨found, found.length⟩ : ExceptT Error (StateM (Traced (Desk σ ι))) Sweep).run.run t =
        (result, ⟨after, t.events ++ tried.map .deleting ++ closing.map .said⟩) := by
  obtain ⟨tried, ended, store, hdeletions, hrun⟩ :=
    run_deleteAll move delete next found t
  cases ended with
  | error e =>
    refine ⟨tried, .error e, [], .error (.io e), { t.state with store := store }, hdeletions,
      nofun, ?_, rfl, ?_⟩
    · rintro e' ⟨⟩
      exact ⟨rfl, rfl⟩
    · rw [run_bind_error (run_failing_error hrun), List.map_nil, List.append_nil]
  | ok u =>
    obtain ⟨closing, result, after, hcloses, hclosing, hstore, hanswers⟩ :=
      run_closing move delete next (deletedLines found.length)
        ⟨found, found.length⟩
        ⟨{ t.state with store := store }, t.events ++ tried.map .deleting⟩
    refine ⟨tried, .ok (), closing, result, after, ?_, fun _ => hcloses, nofun, hanswers, ?_⟩
    · rw [hstore]
      exact hdeletions
    · rw [run_bind_ok (run_failing_ok hrun)]
      exact hclosing

/-- The question and the answer. -/
theorem run_mayDelete_prompt {t : Traced (Desk σ ι)} (h : Fits t.state.room 1) :
    (mayDelete (deskOutside move delete next) .prompt).run.run t =
      (((next.run.run t.state.answers).1.map agrees).mapError .io,
        ⟨{ t.state with
            answers := (next.run.run t.state.answers).2
            room := roomAfter t.state.room 1 }, t.events ++ [.said question, .asked]⟩) := by
  rw [mayDelete, run_bind_ok (run_failing_ok (run_say_of_fits h question))]
  have hask := run_ask move delete next
    ⟨{ t.state with room := roomAfter t.state.room 1 }, t.events ++ [.said question]⟩
  rcases hnext : (next.run.run t.state.answers).1 with e | answer
  · rw [hnext] at hask
    rw [run_bind_error (run_failing_error hask)]
    simp [Except.map, Except.mapError]
  · rw [hnext] at hask
    rw [run_bind_ok (run_failing_ok hask)]
    simp [Except.map, Except.mapError, pure, ExceptT.pure]
    rfl

/-! ## Before and behind the decision -/

/-- What a sweep does once it knows whether it may delete. -/
def finish {m : Type → Type} [Monad m] (o : Outside m) (found : List String) (allowed : Bool) :
    ExceptT Error m Sweep := do
  if allowed then
    failing (o.deleteAll found)
    failing (o.sayAll (deletedLines found.length))
    return ⟨found, found.length⟩
  else
    failing (o.say keptLine)
    return ⟨found, 0⟩

/-- How a sweep comes to know whether it may delete. -/
def decision {m : Type → Type} [Monad m] (o : Outside m) (mode : Mode) (found : List String) :
    ExceptT Error m Bool :=
  if found.isEmpty then pure false else mayDelete o mode

/-- A sweep is a listing, a decision and what follows from it. Each of the parts has its own lemma,
and the account of the whole is put together from these. -/
theorem run_eq {m : Type → Type} [Monad m] [LawfulMonad m] (o : Outside m) (mode : Mode)
    (touched onDisk : List String) :
    run o mode touched onDisk = (do
      failing (o.sayAll (listing (Baseline.strays touched onDisk)))
      let allowed ← decision o mode (Baseline.strays touched onDisk)
      finish o (Baseline.strays touched onDisk) allowed) := by
  simp only [run, decision]
  split <;> rfl

/-- The desk with the whole listing written. -/
def listedDesk (found : List String) (t : Traced (Desk σ ι)) : Traced (Desk σ ι) :=
  ⟨{ t.state with room := roomAfter t.state.room (listing found).length },
    t.events ++ (listing found).map .said⟩

variable (move delete next) in
/-- The decision of a sweep that has the whole listing written and is not to be asked. -/
theorem run_decision_unasked {allowed : Bool} (t : Traced (Desk σ ι))
    (h : allowed = true ∧ mode = .delete ∧ found ≠ [] ∨
      allowed = false ∧ (found = [] ∨ mode = .dryRun)) :
    (decision (deskOutside move delete next) mode found).run.run t = (.ok allowed, t) := by
  rcases h with ⟨rfl, rfl, hne⟩ | ⟨rfl, rfl | rfl⟩
  · rw [decision, if_neg (by simpa using hne)]
    rfl
  · rfl
  · rw [decision]
    split <;> rfl

variable (move delete next) in
/-- The decision of a sweep that asks. -/
theorem run_decision_prompt (hne : found ≠ []) {t : Traced (Desk σ ι)} (h : Fits t.state.room 1) :
    (decision (deskOutside move delete next) .prompt found).run.run t =
      (((next.run.run t.state.answers).1.map agrees).mapError .io,
        ⟨{ t.state with
            answers := (next.run.run t.state.answers).2
            room := roomAfter t.state.room 1 }, t.events ++ [.said question, .asked]⟩) := by
  rw [decision, if_neg (by simpa using hne), run_mayDelete_prompt h]

/-- The decision of a sweep that cannot write its question. -/
theorem run_decision_unwritten (hne : found ≠ []) {t : Traced (Desk σ ι)}
    (h : ¬ Fits t.state.room 1) :
    (decision (deskOutside move delete next) .prompt found).run.run t =
      (.error (.io .outputClosed), t) := by
  rw [decision, if_neg (by simpa using hne), mayDelete,
    run_bind_error (run_failing_error (run_say_of_not_fits h question))]

/-! ## The ends of a run -/

/-- What a sweep does from a desk on which the decision is made: the listing is written, and the
question is put or not. -/
structure Decided (next : ExceptT IoError (StateM ι) String) (mode : Mode) (found : List String)
    (t : Traced (Desk σ ι)) (asks : Bool) (t' : Traced (Desk σ ι)) : Prop where
  /-- whether the question was put -/
  asks_iff : asks = true ↔ Asks mode found t.state.room
  /-- the effects so far -/
  events : t'.events = t.events ++ (listing found).map .said ++
    if asks then [.said question, .asked] else []
  /-- the store is as it was -/
  store : t'.state.store = t.state.store
  /-- at most the one answer is used up -/
  answers : t'.state.answers = if asks then (next.run.run t.state.answers).2 else t.state.answers
  /-- the lines so far take up room -/
  room : t'.state.room = roomAfter t.state.room ((listing found).length + if asks then 1 else 0)

variable {t t' : Traced (Desk σ ι)} {asks : Bool}

variable (move delete) in
/-- A sweep that spares everything, behind the decision. -/
theorem accounts_of_spared (hspared : Spared next mode found t.state)
    (h : Decided next mode found t asks t') :
    ∃ (c : Course) (result : Except Error Sweep) (after : Desk σ ι),
      c.Accounts delete next mode found t.state result after ∧
        (finish (deskOutside move delete next) found false).run.run t' =
          (result, ⟨after, t.events ++ c.events⟩) := by
  obtain ⟨closing, result, after, hcloses, hrun, hstore, hanswers⟩ :=
    run_closing move delete next [keptLine] ⟨found, 0⟩ t'
  refine ⟨⟨(listing found), asks, [], closing⟩, result, after,
    ⟨?_, h.asks_iff, ?_, ?_, ?_, ?_, ?_, ?_⟩, ?_⟩
  · exact (taken_of_fits hspared.1).symm
  · exact hanswers.trans h.answers
  · exact fun _ => ⟨rfl, hstore.trans h.store⟩
  · exact fun hallowed => absurd hallowed hspared.not_allowed
  · intro _
    rw [h.room] at hcloses
    exact hcloses
  · exact fun hcut => absurd hcut hspared.not_cutShort
  · exact fun hasks e herr => absurd herr (hspared.answered hasks)
  · rw [finish, if_neg Bool.false_ne_true, say_eq_sayAll]
    refine hrun.trans ?_
    rw [h.events]
    simp [Course.events]

variable (move delete) in
/-- A sweep that deletes, behind the decision. -/
theorem accounts_of_allowed (hallowed : Allowed next mode found t.state)
    (h : Decided next mode found t asks t') :
    ∃ (c : Course) (result : Except Error Sweep) (after : Desk σ ι),
      c.Accounts delete next mode found t.state result after ∧
        (finish (deskOutside move delete next) found true).run.run t' =
          (result, ⟨after, t.events ++ c.events⟩) := by
  obtain ⟨tried, ended, closing, result, after, hdeletions, hok, herror, hanswers, hrun⟩ :=
    run_deleting move delete next found t'
  refine ⟨⟨(listing found), asks, tried, closing⟩, result, after,
    ⟨?_, h.asks_iff, ?_, ?_, ?_, ?_, ?_, ?_⟩, ?_⟩
  · exact (taken_of_fits hallowed.2.1).symm
  · exact hanswers.trans h.answers
  · exact fun hnot => absurd hallowed hnot
  · rw [h.store] at hdeletions
    rw [h.room] at hok
    exact fun _ => ⟨ended, hdeletions, hok, herror⟩
  · exact fun hspared => absurd hallowed hspared.not_allowed
  · exact fun hcut => absurd hcut hallowed.not_cutShort
  · exact fun hasks e herr => absurd herr (hallowed.answered hasks)
  · rw [finish, if_pos rfl]
    refine hrun.trans ?_
    rw [h.events]
    simp [Course.events]

/-- A sweep that cannot write its listing or its question. -/
theorem accounts_of_cutShort (h : CutShort mode found before.room) {after : Desk σ ι}
    (hstore : after.store = before.store) (hanswers : after.answers = before.answers) :
    Course.Accounts delete next mode found before (.error (.io .outputClosed)) after
      ⟨taken before.room (listing found), false, [], []⟩ where
  listed := rfl
  asks := ⟨nofun, fun hasks => absurd hasks h.not_asks⟩
  answers := hanswers
  untouched _ := ⟨rfl, hstore⟩
  deletes hallowed := absurd h hallowed.not_cutShort
  spares hspared := absurd h hspared.not_cutShort
  cutShort _ := ⟨rfl, rfl⟩
  unanswered hasks := absurd hasks h.not_asks

/-- A sweep that gets no answer. -/
theorem accounts_of_unanswered (h : Asks mode found before.room) {e : IoError}
    (he : (next.run.run before.answers).1 = .error e) {after : Desk σ ι}
    (hstore : after.store = before.store)
    (hanswers : after.answers = (next.run.run before.answers).2) :
    Course.Accounts delete next mode found before (.error (.io e)) after
      ⟨taken before.room (listing found), true, [], []⟩ where
  listed := rfl
  asks := ⟨fun _ => h, fun _ => rfl⟩
  answers := hanswers
  untouched _ := ⟨rfl, hstore⟩
  deletes hallowed := absurd he (hallowed.answered h)
  spares hspared := absurd he (hspared.answered h)
  cutShort hcut := absurd h hcut.not_asks
  unanswered _ e' he' := by
    obtain rfl : e = e' := Except.error.inj (he.symm.trans he')
    exact ⟨rfl, rfl⟩

end

/-! ## The whole run -/

section

variable {σ ι : Type} (move : String → String → ExceptT IoError (StateM σ) Unit)
  (delete : String → ExceptT IoError (StateM σ) Unit) (next : ExceptT IoError (StateM ι) String)

/-- The course of a prompting sweep that has something to delete and the listing written. -/
theorem run_prompting {found : List String} (hne : found ≠ []) {t : Traced (Desk σ ι)}
    (hlist : Fits t.state.room (listing found).length) :
    ∃ (c : Course) (result : Except Error Sweep) (after : Desk σ ι),
      c.Accounts delete next .prompt found t.state result after ∧
        (do
          let allowed ← decision (deskOutside move delete next) .prompt found
          finish (deskOutside move delete next) found allowed).run.run (listedDesk found t) =
          (result, ⟨after, t.events ++ c.events⟩) := by
  by_cases hroom : Fits (listedDesk found t).state.room 1
  · have hasks : Asks .prompt found t.state.room := ⟨rfl, hne, fits_add.2 ⟨hlist, hroom⟩⟩
    have hdecision := run_decision_prompt move delete next hne hroom
    have hdecided : Decided next .prompt found t true
        ⟨{ (listedDesk found t).state with
            answers := (next.run.run t.state.answers).2
            room := roomAfter (listedDesk found t).state.room 1 },
          (listedDesk found t).events ++ [.said question, .asked]⟩ :=
      ⟨⟨fun _ => hasks, fun _ => rfl⟩, rfl, rfl, rfl, roomAfter_add _ _ _⟩
    rcases hanswer : (next.run.run t.state.answers).1 with e | answer
    · -- no answer comes
      rw [listedDesk, hanswer] at hdecision
      refine ⟨_, _, _, accounts_of_unanswered hasks hanswer hdecided.store hdecided.answers, ?_⟩
      rw [listedDesk, run_bind_error hdecision]
      simp [Course.events, taken_of_fits hlist]
    · rw [listedDesk, hanswer] at hdecision
      rw [listedDesk, run_bind_ok hdecision]
      by_cases hagrees : answer ∈ agreeing
      · rw [(agrees_iff answer).2 hagrees]
        exact accounts_of_allowed move delete
          ⟨hne, hlist, .inr ⟨hasks, answer, hagrees, hanswer⟩⟩ hdecided
      · rw [Bool.eq_false_iff.2 fun h => hagrees ((agrees_iff answer).1 h)]
        exact accounts_of_spared move delete
          ⟨hlist, .inr (.inr ⟨hasks, answer, hagrees, hanswer⟩)⟩ hdecided
  · -- the question cannot be written
    have hcut : CutShort .prompt found t.state.room :=
      .inr ⟨rfl, hne, fun h => hroom (fits_add.1 h).2⟩
    refine ⟨⟨taken t.state.room (listing found), false, [], []⟩, _, (listedDesk found t).state,
      accounts_of_cutShort hcut rfl rfl, ?_⟩
    rw [run_bind_error (run_decision_unwritten hne hroom)]
    simp [Course.events, listedDesk, taken_of_fits hlist]

/-- Every sweep has a course that accounts for it. The listing, the decision and what follows are
run one after the other, and the heading is picked by what the decision comes to. -/
theorem run_accounts (mode : Mode) (touched onDisk : List String) (t : Traced (Desk σ ι)) :
    ∃ (c : Course) (result : Except Error Sweep) (after : Desk σ ι),
      c.Accounts delete next mode (Baseline.strays touched onDisk) t.state result after ∧
        (run (deskOutside move delete next) mode touched onDisk).run.run t =
          (result, ⟨after, t.events ++ c.events⟩) := by
  rw [run_eq]
  generalize Baseline.strays touched onDisk = found
  have hwrite := run_sayAll move delete next (listing found) t
  by_cases hlist : Fits t.state.room (listing found).length
  · rw [if_pos hlist, taken_of_fits hlist] at hwrite
    rw [run_bind_ok (run_failing_ok hwrite)]
    -- the listing is written; a sweep that does not prompt decides without a word
    have hunasked (h : ¬ Asks mode found t.state.room) :
        Decided next mode found t false (listedDesk found t) :=
      ⟨⟨nofun, fun hasks => absurd hasks h⟩, (List.append_nil _).symm, rfl, rfl, rfl⟩
    by_cases hnothing : found = [] ∨ mode = .dryRun
    · have hspared : Spared next mode found t.state :=
        ⟨hlist, hnothing.imp_right .inl⟩
      have hasks : ¬ Asks mode found t.state.room := by
        rintro ⟨hprompt, hne, -⟩
        rcases hnothing with hnil | hdry
        · exact hne hnil
        · exact Mode.noConfusion (hdry.symm.trans hprompt)
      rw [run_bind_ok (run_decision_unasked move delete next _ (.inr ⟨rfl, hnothing⟩))]
      exact accounts_of_spared move delete hspared (hunasked hasks)
    · have hne : found ≠ [] := fun hnil => hnothing (.inl hnil)
      cases mode with
      | dryRun => exact absurd (.inr rfl) hnothing
      | prompt => exact run_prompting move delete next hne hlist
      | delete =>
        rw [run_bind_ok (run_decision_unasked move delete next _ (.inl ⟨rfl, rfl, hne⟩))]
        exact accounts_of_allowed move delete ⟨hne, hlist, .inl rfl⟩ (hunasked nofun)
  · rw [if_neg hlist] at hwrite
    rw [run_bind_error (run_failing_error hwrite)]
    refine ⟨⟨taken t.state.room (listing found), false, [], []⟩, _,
      { t.state with room := roomAfter t.state.room (listing found).length },
      accounts_of_cutShort (.inl hlist) rfl rfl, ?_⟩
    simp [Course.events]

/-- **The course of a sweep.** Whatever the store, the deleter, the answers and the output, the
effects of a sweep are those of a course that `Course.Accounts` pins down: the listing, then the
question and its answer, then the deletions, then the closing lines. What is deleted is a first part
of what was found; nothing is deleted that is not allowed, and what is allowed is deleted to the end
or up to the first failure; and a dry run neither deletes nor asks. -/
theorem run_course (mode : Mode) (touched onDisk : List String) (t : Traced (Desk σ ι)) :
    ∃ (c : Course) (result : Except Error Sweep) (after : Desk σ ι),
      (run (deskOutside move delete next) mode touched onDisk).run.run t =
        (result, ⟨after, t.events ++ c.events⟩) ∧
      c.Accounts delete next mode (Baseline.strays touched onDisk) t.state result after ∧
      c.tried <+: Baseline.strays touched onDisk ∧
      (c.tried ≠ [] → Allowed next mode (Baseline.strays touched onDisk) t.state) ∧
      (Allowed next mode (Baseline.strays touched onDisk) t.state →
        c.tried = Baseline.strays touched onDisk ∨
          ∃ gone path behind store e, Baseline.strays touched onDisk = gone ++ path :: behind ∧
            c.tried = gone ++ [path] ∧ Deletions delete gone t.state.store gone (.ok ()) store ∧
            (delete path).run.run store = (.error e, after.store) ∧
            c.closing = [] ∧ result = .error (.io e)) ∧
      (mode = .dryRun → c.tried = [] ∧ after.store = t.state.store ∧
        c.asks = false ∧ after.answers = t.state.answers) := by
  obtain ⟨c, result, after, haccounts, hrun⟩ := run_accounts move delete next mode touched onDisk t
  refine ⟨c, result, after, hrun, haccounts, haccounts.tried_prefix, haccounts.allowed_of_tried,
    haccounts.tried_of_allowed, ?_⟩
  rintro rfl
  obtain ⟨htried, hstore⟩ := haccounts.untouched not_allowed_dryRun
  have hasks : c.asks = false := Bool.eq_false_iff.2 fun h => nomatch (haccounts.asks.1 h).1
  refine ⟨htried, hstore, hasks, ?_⟩
  rw [haccounts.answers, hasks]
  rfl

end

end Baseline.Sweep
