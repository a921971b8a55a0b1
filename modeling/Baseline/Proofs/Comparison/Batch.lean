import Baseline.Comparison.Batch
import Baseline.Proofs.Desk.Run
import Mathlib.Data.List.Forall2

/-!
# The law of a batch

A log is read as a whole before anything is moved: its first line that is no record ends the run,
and nothing has happened (`parseAll_of_refused`). Otherwise every record is tried once, in order and
whatever becomes of the others (`Tries`), and then the report on all of them is written, as far as
the output takes it (`Writes`).

Both are told for an outside of any kind: its state is shared by the mover, the output and the
notes, and each request may answer as it likes. What a note leaves in the trace is a parameter
(`Leaves`), so the laws hold of a log that is kept apart and of one that is shown as well.
-/

namespace Baseline

/-! ## Reading a log -/

namespace Comparison

/-- A line spells a record, whatever its number is. -/
def Spells (line : String) (c : Comparison) : Prop := ∀ n, parse n line = .ok c

/-- A line is a record. -/
def IsRecord (line : String) : Prop := ∃ c, Spells line c

/-- A line is a record, or it is refused with its number and its text. -/
theorem parse_cases (line : String) :
    IsRecord line ∨ ∀ n, parse n line = .error (.malformedRecord n line) := by
  simp only [IsRecord, Spells, parse]
  cases cutAtArrow line.toList with
  | none => exact .inr fun _ => rfl
  | some halves =>
    obtain ⟨received, approved⟩ := halves
    dsimp only
    cases cutAtArrow approved with
    | none => exact .inl ⟨_, fun _ => rfl⟩
    | some _ => exact .inr fun _ => rfl

theorem parse_of_not_isRecord {line : String} (h : ¬ IsRecord line) (n : Nat) :
    parse n line = .error (.malformedRecord n line) :=
  (parse_cases line).resolve_left h n

/-- Lines that are all records spell a list of them, one for each line and in the same order. -/
theorem exists_records {lines : List String} (h : ∀ line ∈ lines, IsRecord line) :
    ∃ records, List.Forall₂ Spells lines records := by
  induction lines with
  | nil => exact ⟨[], .nil⟩
  | cons line lines ih =>
    obtain ⟨c, hc⟩ := h line List.mem_cons_self
    obtain ⟨records, hrecords⟩ := ih fun other hother => h other (List.mem_cons_of_mem line hother)
    exact ⟨c :: records, .cons hc hrecords⟩

/-- Where a line is no record there is a first one. -/
theorem exists_refused {lines : List String} (h : ∃ line ∈ lines, ¬ IsRecord line) :
    ∃ before line behind, lines = before ++ line :: behind ∧
      (∀ other ∈ before, IsRecord other) ∧ ¬ IsRecord line := by
  induction lines with
  | nil =>
    obtain ⟨_, hmem, -⟩ := h
    exact absurd hmem List.not_mem_nil
  | cons first lines ih =>
    by_cases hfirst : IsRecord first
    · obtain ⟨line, hmem, hline⟩ := h
      have hrest : line ∈ lines :=
        (List.mem_cons.1 hmem).resolve_left fun heq => hline (heq ▸ hfirst)
      obtain ⟨before, line, behind, rfl, hbefore, hline⟩ := ih ⟨line, hrest, hline⟩
      refine ⟨first :: before, line, behind, rfl, ?_, hline⟩
      exact List.forall_mem_cons.2 ⟨hfirst, hbefore⟩
    · exact ⟨[], first, lines, rfl, fun _ hmem => absurd hmem List.not_mem_nil, hfirst⟩

/-- A log of records reads as these records, whatever number its first line has, because the number
only shows in a refusal. -/
theorem parseFrom_of_spells {lines : List String} {records : List Comparison}
    (h : List.Forall₂ Spells lines records) (n : Nat) : parseFrom n lines = .ok records := by
  induction h generalizing n with
  | nil => rfl
  | cons hline _ ih =>
    rw [parseFrom, hline n, ih (n + 1)]
    rfl

/-- The first line that is no record ends the reading, with its number. -/
theorem parseFrom_of_refused {before behind : List String} {line : String}
    (hbefore : ∀ other ∈ before, IsRecord other) (hline : ¬ IsRecord line) (n : Nat) :
    parseFrom n (before ++ line :: behind) =
      .error (.malformedRecord (n + before.length) line) := by
  induction before generalizing n with
  | nil =>
    rw [List.nil_append, parseFrom, parse_of_not_isRecord hline]
    rfl
  | cons first before ih =>
    obtain ⟨c, hc⟩ := hbefore first List.mem_cons_self
    rw [List.cons_append, parseFrom, hc n,
      ih fun other hother => hbefore other (List.mem_cons_of_mem first hother),
      List.length_cons, Nat.add_assoc, Nat.add_comm 1]
    rfl

/-- In a whole log the number of the refused line is its place counted from one: the lines before
it, and itself. -/
theorem parseAll_of_refused {before behind : List String} {line : String}
    (hbefore : ∀ other ∈ before, IsRecord other) (hline : ¬ IsRecord line) :
    parseAll (before ++ line :: behind) = .error (.malformedRecord (before.length + 1) line) := by
  rw [parseAll, parseFrom_of_refused hbefore hline, Nat.add_comm]

end Comparison

/-! ## What came of the records -/

namespace Outcome

/-- The records that could not be moved, in order, each with its reason. -/
def refusals (tried : List Accepted) : List (Comparison × String) :=
  tried.filterMap fun a => a.failure.map fun reason => (a.comparison, reason)

/-- The outcome holds the refusals without the received paths, so the two lists have the same order
and length. -/
theorem failed_of (tried : List Accepted) :
    (Outcome.of tried).failed = (refusals tried).map fun r => ⟨r.1.approved, r.2⟩ := by
  rw [Outcome.of, refusals, List.map_filterMap]
  simp only [Option.map_map]
  rfl

/-- A note tells of a failed move: it is a warning, and its text ends in the reason that the outcome
holds. -/
def Warns (f : FailedMove) (n : Note) : Prop :=
  n.severity = .warn ∧ f.reason.toList <:+ n.text.toList

theorem warns_moveFailed (c : Comparison) (reason : String) :
    Warns ⟨c.approved, reason⟩ (moveFailed c reason) := by
  refine ⟨rfl, ?_⟩
  rw [moveFailed, String.toList_append]
  exact List.suffix_append _ _

/-- Each baseline that could not be replaced has its own warning, in the same order. -/
theorem forall₂_warns (tried : List Accepted) :
    List.Forall₂ Warns (Outcome.of tried).failed
      ((refusals tried).map fun r => moveFailed r.1 r.2) := by
  rw [failed_of, List.forall₂_map_left_iff, List.forall₂_map_right_iff, List.forall₂_same]
  intro r _
  exact warns_moveFailed r.1 r.2

/-- Every record is accounted for once: its baseline was replaced, or it could not be. -/
theorem perm_of (tried : List Accepted) :
    ((Outcome.of tried).approved ++ (Outcome.of tried).failed.map FailedMove.approved).Perm
      (tried.map fun a => a.comparison.approved) := by
  induction tried with
  | nil => exact .nil
  | cons a tried ih =>
    obtain ⟨c, failure⟩ := a
    cases failure with
    | none => exact ih.cons c.approved
    | some reason => exact List.perm_middle.trans (ih.cons c.approved)

end Outcome

section

variable {δ : Type} (o : Outside (StateM δ))

/-! ## Trying the records -/

/-- `Tries o cs s tried s'`: the records `cs` are tried one by one, from the state `s` to the state
`s'`, and `tried` is what came of each. -/
inductive Tries : List Comparison → δ → List Accepted → δ → Prop where
  /-- no record is left -/
  | done (s : δ) : Tries [] s [] s
  /-- a record is moved -/
  | went {c : Comparison} {cs : List Comparison} {s s' s'' : δ} {tried : List Accepted}
      (h : (o.move c.received c.approved).run.run s = (.ok (), s')) (rest : Tries cs s' tried s'') :
      Tries (c :: cs) s (⟨c, none⟩ :: tried) s''
  /-- a record cannot be moved, which is noted, and those behind it are tried all the same -/
  | failed {c : Comparison} {cs : List Comparison} {s s' s'' : δ} {e : IoError}
      {tried : List Accepted} (h : (o.move c.received c.approved).run.run s = (.error e, s'))
      (rest : Tries cs ((o.note (moveFailed c e.text)).run s').2 tried s'') :
      Tries (c :: cs) s (⟨c, some e.text⟩ :: tried) s''

variable {o}

/-- Each record is tried once, in order. -/
theorem Tries.records_eq {cs : List Comparison} {s s' : δ} {tried : List Accepted}
    (h : Tries o cs s tried s') : tried.map Accepted.comparison = cs := by
  induction h with
  | done => rfl
  | went _ _ ih => rw [List.map_cons, ih]
  | failed _ _ ih => rw [List.map_cons, ih]

variable (o)

/-- The outside on record, with another way to leave notes. -/
def noting (note : Note → StateM (Traced δ) Unit) : Outside (StateM (Traced δ)) :=
  { Traced.outside o with note := note }

/-- A note does to the state what it does anyway, and leaves some events in the trace. -/
def Leaves (note : Note → StateM (Traced δ) Unit) (left : Note → List Event) : Prop :=
  ∀ n t, (note n).run t = ((), ⟨((o.note n).run t.state).2, t.events ++ left n⟩)

theorem leaves_noted : Leaves o (Traced.outside o).note fun n => [.noted n] := fun _ _ => rfl

/-- The trace of a record that was tried. -/
def Accepted.events (left : Note → List Event) (a : Accepted) : List Event :=
  .moving a.comparison.received a.comparison.approved ::
    match a.failure with
    | none => []
    | some reason => left (moveFailed a.comparison reason)

variable {o} {note : Note → StateM (Traced δ) Unit} {left : Note → List Event}

variable (o note) in
theorem run_move (received approved : String) (t : Traced δ) :
    ((noting o note).move received approved).run.run t =
      (((o.move received approved).run.run t.state).1,
        ⟨((o.move received approved).run.run t.state).2,
          t.events ++ [.moving received approved]⟩) :=
  rfl

/-- A record whose move succeeds leaves one event, the move, and no note. -/
theorem run_accept_ok {c : Comparison} {t : Traced δ} {s : δ}
    (h : (o.move c.received c.approved).run.run t.state = (.ok (), s)) :
    (accept (noting o note) c).run t =
      (⟨c, none⟩, ⟨s, t.events ++ [.moving c.received c.approved]⟩) := by
  have hmove := run_move o note c.received c.approved t
  rw [h] at hmove
  rw [accept, run_bind_of_eq hmove]
  rfl

/-- A record whose move fails leaves two: the move that was tried, then the note, and what the note
does to the state comes before the next record. -/
theorem run_accept_error (hnote : Leaves o note left) {c : Comparison} {t : Traced δ} {s : δ}
    {e : IoError} (h : (o.move c.received c.approved).run.run t.state = (.error e, s)) :
    (accept (noting o note) c).run t =
      (⟨c, some e.text⟩, ⟨((o.note (moveFailed c e.text)).run s).2,
        t.events ++ .moving c.received c.approved :: left (moveFailed c e.text)⟩) := by
  have hmove := run_move o note c.received c.approved t
  rw [h] at hmove
  have hleft : ((noting o note).note (moveFailed c e.text)).run
      ⟨s, t.events ++ [.moving c.received c.approved]⟩ = _ := hnote _ _
  rw [accept, run_bind_of_eq hmove]
  dsimp only
  rw [run_bind_of_eq hleft, List.append_assoc, List.singleton_append]
  rfl

/-- Every record is tried, and the trace tells of each. -/
theorem run_acceptEach (hnote : Leaves o note left) (cs : List Comparison) (t : Traced δ) :
    ∃ tried s, Tries o cs t.state tried s ∧ (acceptEach (noting o note) cs).run t =
      (tried, ⟨s, t.events ++ tried.flatMap (Accepted.events left)⟩) := by
  induction cs generalizing t with
  | nil =>
    refine ⟨[], t.state, .done _, ?_⟩
    rw [List.flatMap_nil, List.append_nil]
    rfl
  | cons c cs ih =>
    rw [acceptEach]
    rcases h : (o.move c.received c.approved).run.run t.state with ⟨⟨e⟩ | ⟨⟨⟩⟩, s⟩
    · obtain ⟨tried, s', htries, hrun⟩ := ih ⟨((o.note (moveFailed c e.text)).run s).2,
        t.events ++ .moving c.received c.approved :: left (moveFailed c e.text)⟩
      refine ⟨⟨c, some e.text⟩ :: tried, s', .failed h htries, ?_⟩
      rw [run_bind_of_eq (run_accept_error hnote h), run_bind_of_eq hrun, List.flatMap_cons,
        ← List.append_assoc]
      rfl
    · obtain ⟨tried, s', htries, hrun⟩ := ih ⟨s, t.events ++ [.moving c.received c.approved]⟩
      refine ⟨⟨c, none⟩ :: tried, s', .went h htries, ?_⟩
      rw [run_bind_of_eq (run_accept_ok h), run_bind_of_eq hrun, List.flatMap_cons,
        ← List.append_assoc]
      rfl

/-! ## Writing the report -/

variable (o) in
/-- `Writes o lines s written ended s'`: of `lines` the ones in `written` are written in order, from
the state `s` to the state `s'`, and it ends as `ended` says. -/
inductive Writes : List String → δ → List String → Except IoError Unit → δ → Prop where
  /-- no line is left -/
  | done (s : δ) : Writes [] s [] (.ok ()) s
  /-- a line is not taken, and those behind it are not tried -/
  | failed {line : String} {lines : List String} {s s' : δ} {e : IoError}
      (h : (o.say line).run.run s = (.error e, s')) : Writes (line :: lines) s [] (.error e) s'
  /-- a line is taken, and those behind it follow -/
  | went {line : String} {lines written : List String} {s s' s'' : δ} {ended : Except IoError Unit}
      (h : (o.say line).run.run s = (.ok (), s')) (rest : Writes lines s' written ended s'') :
      Writes (line :: lines) s (line :: written) ended s''

/-- On an output that takes every line no line fails. -/
theorem Writes.ended_eq {lines written : List String} {s s' : δ} {ended : Except IoError Unit}
    (h : Writes o lines s written ended s')
    (htakes : ∀ line s, ((o.say line).run.run s).1 = .ok ()) : ended = .ok () := by
  induction h with
  | done => rfl
  | @failed line _ s _ _ hline =>
    have hok := htakes line s
    rw [hline] at hok
    cases hok
  | went _ _ ih => exact ih

theorem run_say_error {line : String} {t : Traced δ} {s : δ} {e : IoError}
    (h : (o.say line).run.run t.state = (.error e, s)) :
    ((noting o note).say line).run.run t = (.error e, ⟨s, t.events⟩) := by
  have hstep : (ExceptT.mk (Traced.onState (o.say line).run)).run.run t =
      (((o.say line).run.run t.state).1, ⟨((o.say line).run.run t.state).2, t.events⟩) := rfl
  rw [h] at hstep
  exact run_bind_error hstep _

theorem run_say_ok {line : String} {t : Traced δ} {s : δ}
    (h : (o.say line).run.run t.state = (.ok (), s)) :
    ((noting o note).say line).run.run t = (.ok (), ⟨s, t.events ++ [.said line]⟩) := by
  have hstep : (ExceptT.mk (Traced.onState (o.say line).run)).run.run t =
      (((o.say line).run.run t.state).1, ⟨((o.say line).run.run t.state).2, t.events⟩) := rfl
  rw [h] at hstep
  exact run_bind_ok hstep _

variable (o note) in
/-- Lines are written in order, up to the first that is not taken. -/
theorem run_sayAll_of (lines : List String) (t : Traced δ) :
    ∃ written ended s, Writes o lines t.state written ended s ∧
      ((noting o note).sayAll lines).run.run t =
        (ended, ⟨s, t.events ++ written.map .said⟩) := by
  induction lines generalizing t with
  | nil =>
    refine ⟨[], .ok (), t.state, .done _, ?_⟩
    rw [List.map_nil, List.append_nil]
    rfl
  | cons line lines ih =>
    rw [Outside.sayAll]
    rcases h : (o.say line).run.run t.state with ⟨⟨e⟩ | ⟨⟨⟩⟩, s⟩
    · refine ⟨[], .error e, s, .failed h, ?_⟩
      rw [run_bind_error (run_say_error h), List.map_nil, List.append_nil]
    · obtain ⟨written, ended, s', hwrites, hrun⟩ := ih ⟨s, t.events ++ [.said line]⟩
      refine ⟨line :: written, ended, s', .went h hwrites, ?_⟩
      rw [run_bind_ok (run_say_ok h), hrun, List.map_cons, List.append_assoc,
        List.singleton_append]

/-! ## The whole batch -/

/-- How a batch went: what came of each record, and how far the report was written. -/
structure Batch (δ : Type) where
  /-- what came of each record -/
  tried : List Accepted
  /-- the state behind the last record -/
  moved : δ
  /-- the lines of the report that were written -/
  written : List String
  /-- how the writing ended -/
  ended : Except IoError Unit

/-- The batch `b` is how a log with the given records is accepted: from `t`, with the given result,
to `t'`. -/
structure Batch.Accounts (b : Batch δ) (o : Outside (StateM δ)) (left : Note → List Event)
    (records : List Comparison) (t : Traced δ) (result : Except Error Outcome) (t' : Traced δ) :
    Prop where
  /-- every record is tried, in order -/
  tries : Tries o records t.state b.tried b.moved
  /-- then the report is written, as far as it is taken -/
  writes : Writes o (Outcome.of b.tried).report b.moved b.written b.ended t'.state
  /-- the result is the outcome of all records, unless a line was not taken -/
  result_eq : result = (b.ended.mapError .io).map fun _ => Outcome.of b.tried
  /-- nothing else happens -/
  events : t'.events = t.events ++ b.tried.flatMap (Accepted.events left) ++ b.written.map .said

/-- Every log of records is accepted as some batch. The account of the batch has all that there is
to say of the run, so the laws below are read off it and do not open the run again. -/
theorem run_acceptLog (hnote : Leaves o note left) {lines : List String}
    {records : List Comparison} (hparse : Comparison.parseAll lines = .ok records)
    (t : Traced δ) :
    ∃ (b : Batch δ) (result : Except Error Outcome) (t' : Traced δ),
      b.Accounts o left records t result t' ∧
        (acceptLog (noting o note) lines).run.run t = (result, t') := by
  obtain ⟨tried, moved, htries, heach⟩ := run_acceptEach hnote records t
  obtain ⟨written, ended, s, hwrites, hsay⟩ := run_sayAll_of o note
    (Outcome.of tried).report ⟨moved, t.events ++ tried.flatMap (Accepted.events left)⟩
  refine ⟨⟨tried, moved, written, ended⟩, (ended.mapError .io).map fun _ => Outcome.of tried,
    ⟨s, t.events ++ tried.flatMap (Accepted.events left) ++ written.map .said⟩,
    ⟨htries, hwrites, rfl, rfl⟩, ?_⟩
  have hall : (ExceptT.lift (acceptAll (noting o note) records) :
      ExceptT Error (StateM (Traced δ)) Outcome).run.run t =
        (.ok (Outcome.of tried), ⟨moved, t.events ++ tried.flatMap (Accepted.events left)⟩) := by
    rw [ExceptT.run_lift, StateT.run_map, acceptAll, run_bind_of_eq heach]
    rfl
  rw [acceptLog, hparse]
  dsimp only
  rw [run_bind_ok hall]
  cases ended with
  | error e =>
    rw [run_bind_error (run_failing_error hsay)]
    rfl
  | ok done =>
    rw [run_bind_ok (run_failing_ok hsay)]
    rfl

variable (o note) in
/-- A log that is refused ends the run at once. -/
theorem run_acceptLog_error {lines : List String} {e : Error}
    (hparse : Comparison.parseAll lines = .error e) (t : Traced δ) :
    (acceptLog (noting o note) lines).run.run t = (.error e, t) := by
  rw [acceptLog, hparse]
  rfl

/-! ## What a batch leaves behind -/

/-- Lines that are written add lines to a trace. -/
theorem filterMap_line?_append_said (events : List Event) (lines : List String) :
    (events ++ lines.map Event.said).filterMap Event.line? =
      events.filterMap Event.line? ++ lines := by
  rw [List.filterMap_append, List.filterMap_map]
  exact congrArg _ List.filterMap_some

/-- They add no moves. -/
theorem filterMap_move?_append_said (events : List Event) (lines : List String) :
    (events ++ lines.map Event.said).filterMap Event.move? = events.filterMap Event.move? := by
  rw [List.filterMap_append, List.filterMap_map]
  simp [Function.comp_def, Event.move?]

/-- They add no notes. -/
theorem filterMap_note?_append_said (events : List Event) (lines : List String) :
    (events ++ lines.map Event.said).filterMap Event.note? = events.filterMap Event.note? := by
  rw [List.filterMap_append, List.filterMap_map]
  simp [Function.comp_def, Event.note?]

/-- The pair of paths of a record. -/
def Comparison.paths (c : Comparison) : String × String := (c.received, c.approved)

/-- Read off the trace, the moves are the records that were tried: one move for each, whatever came
of it, as long as the notes leave no moves of their own. -/
theorem moves_of_tried (hleft : ∀ n, (left n).filterMap Event.move? = [])
    (tried : List Accepted) :
    (tried.flatMap (Accepted.events left)).filterMap Event.move? =
      tried.map fun a => a.comparison.paths := by
  induction tried with
  | nil => rfl
  | cons a tried ih =>
    rw [List.flatMap_cons, List.filterMap_append, ih]
    obtain ⟨c, failure⟩ := a
    cases failure with
    | none => rfl
    | some reason => simp [Accepted.events, Event.move?, Comparison.paths, hleft]

theorem lines_of_tried (tried : List Accepted) :
    (tried.flatMap (Accepted.events fun n => [.noted n])).filterMap Event.line? = [] := by
  induction tried with
  | nil => rfl
  | cons a tried ih =>
    rw [List.flatMap_cons, List.filterMap_append, ih]
    obtain ⟨c, failure⟩ := a
    cases failure <;> rfl

/-- Read off the trace, the notes are those of the refusals, in order: a record that was moved
leaves none. -/
theorem notes_of_tried (tried : List Accepted) :
    (tried.flatMap (Accepted.events fun n => [.noted n])).filterMap Event.note? =
      (Outcome.refusals tried).map fun r => moveFailed r.1 r.2 := by
  induction tried with
  | nil => rfl
  | cons a tried ih =>
    rw [List.flatMap_cons, List.filterMap_append, ih]
    obtain ⟨c, failure⟩ := a
    cases failure <;> rfl

namespace Batch.Accounts

variable {b : Batch δ} {records : List Comparison} {t t' : Traced δ}
  {result : Except Error Outcome}

/-- The mover was asked once for each record, in order. -/
theorem moves_eq (h : b.Accounts o (fun n => [.noted n]) records t result t') :
    t'.moves = t.moves ++ records.map Comparison.paths := by
  rw [Traced.moves, h.events, filterMap_move?_append_said, List.filterMap_append,
    moves_of_tried fun _ => rfl, ← h.tries.records_eq, List.map_map]
  rfl

/-- There is one note for each record that could not be moved, with the reason that is reported. -/
theorem notes_eq (h : b.Accounts o (fun n => [.noted n]) records t result t') :
    t'.notes = t.notes ++ (Outcome.refusals b.tried).map fun r => moveFailed r.1 r.2 := by
  rw [Traced.notes, h.events, filterMap_note?_append_said, List.filterMap_append, notes_of_tried]
  rfl

/-- An output that takes every line gives the outcome, whatever the mover does. -/
theorem result_eq_ok {left : Note → List Event} (h : b.Accounts o left records t result t')
    (htakes : ∀ line s, ((o.say line).run.run s).1 = .ok ()) :
    result = .ok (Outcome.of b.tried) := by
  rw [h.result_eq, h.writes.ended_eq htakes]
  rfl

end Batch.Accounts

end

/-- **The law of a batch.** Whatever the mover, the output and the notes do: if some line is no
record, the first such line ends the run with its number and its text, and nothing has happened. If
all lines are records, each is tried once, in the order of the lines, with its two paths and
whatever became of those before it. The outcome counts the lines, and holds every baseline once:
among those replaced, or among those that could not be, each with its reason. For each of the latter
there is one note, in the same order: a warning whose text ends in the reason that the outcome
holds. Then the report is written, and if the output takes every line the run succeeds. -/
theorem acceptLog_law {δ : Type} (o : Outside (StateM δ)) (lines : List String) (t : Traced δ) :
    ((∃ line ∈ lines, ¬ Comparison.IsRecord line) →
      ∃ before line behind, lines = before ++ line :: behind ∧
        (∀ other ∈ before, Comparison.IsRecord other) ∧ ¬ Comparison.IsRecord line ∧
        (acceptLog (Traced.outside o) lines).run.run t =
          (.error (.malformedRecord (before.length + 1) line), t)) ∧
    ((∀ line ∈ lines, Comparison.IsRecord line) →
      ∃ (records : List Comparison) (b : Batch δ) (result : Except Error Outcome) (t' : Traced δ),
        List.Forall₂ Comparison.Spells lines records ∧
        (acceptLog (Traced.outside o) lines).run.run t = (result, t') ∧
        b.Accounts o (fun n => [.noted n]) records t result t' ∧
        t'.moves = t.moves ++ records.map Comparison.paths ∧
        (Outcome.of b.tried).recordCount = lines.length ∧
        ((Outcome.of b.tried).approved ++
          (Outcome.of b.tried).failed.map FailedMove.approved).Perm
            (records.map Comparison.approved) ∧
        (Outcome.of b.tried).approved =
          (b.tried.filter (·.failure.isNone)).map (·.comparison.approved) ∧
        (Outcome.of b.tried).failed =
          (Outcome.refusals b.tried).map (fun r => ⟨r.1.approved, r.2⟩) ∧
        t'.notes = t.notes ++ (Outcome.refusals b.tried).map (fun r => moveFailed r.1 r.2) ∧
        (∃ notes, t'.notes = t.notes ++ notes ∧
          List.Forall₂ Outcome.Warns (Outcome.of b.tried).failed notes) ∧
        ((∀ line s, ((o.say line).run.run s).1 = .ok ()) → result = .ok (Outcome.of b.tried))) := by
  constructor
  · intro hrefused
    obtain ⟨before, line, behind, rfl, hbefore, hline⟩ := Comparison.exists_refused hrefused
    refine ⟨before, line, behind, rfl, hbefore, hline, ?_⟩
    exact run_acceptLog_error o (Traced.outside o).note
      (Comparison.parseAll_of_refused hbefore hline) t
  · intro hrecords
    obtain ⟨records, hspells⟩ := Comparison.exists_records hrecords
    obtain ⟨b, result, t', haccounts, hrun⟩ :=
      run_acceptLog (leaves_noted o) (Comparison.parseFrom_of_spells hspells 1) t
    refine ⟨records, b, result, t', hspells, hrun, haccounts, haccounts.moves_eq, ?_, ?_, rfl,
      Outcome.failed_of b.tried, haccounts.notes_eq,
      ⟨_, haccounts.notes_eq, Outcome.forall₂_warns b.tried⟩, haccounts.result_eq_ok⟩
    · have hcount : b.tried.length = records.length := by
        rw [← haccounts.tries.records_eq, List.length_map]
      rw [hspells.length_eq, ← hcount]
      rfl
    · have hperm := Outcome.perm_of b.tried
      rwa [← haccounts.tries.records_eq, List.map_map]

end Baseline
