import Baseline.Proofs.Comparison.Batch
import Baseline.Proofs.Disk.Still
import Baseline.Session
import Baseline.Proofs.Session.Survey

/-!
# Accepting on a desk

A session that accepts reads the log and ends there, with nothing done, if it cannot be read or has
a line that is no record. Otherwise every record is tried before the first line of the report is
written, so what is moved and what is noted does not depend on how many lines the output takes
(`acceptance_of`). An output that closes early changes the result and cuts the report off, and that
is all (`acceptOn_outputOnly`).
-/

namespace Baseline

/-- The error is about the log: it is unreadable, or a line of it is no record. -/
def Error.FaultsLog : Error → Prop
  | .unreadableLog _ _ | .malformedRecord _ _ => True
  | _ => False

section

variable {σ ι : Type} {move : String → String → ExceptT IoError (StateM σ) Unit}
  {delete : String → ExceptT IoError (StateM σ) Unit} {next : ExceptT IoError (StateM ι) String}
  {note : Note → StateM (Traced (Desk σ ι)) Unit} {left : Note → List Event}

/-! ## Records on a desk -/

/-- What comes of records depends on the store alone, and nothing else on the desk changes. -/
theorem run_acceptEach_desk (hnote : Leaves (Desk.outside move delete next) note left)
    (cs : List Comparison) (store : σ) :
    ∃ tried store', tried.map Accepted.comparison = cs ∧ ∀ answers room events,
      (acceptEach (noting (Desk.outside move delete next) note) cs).run
          ⟨⟨store, answers, room⟩, events⟩ =
        (tried, ⟨⟨store', answers, room⟩, events ++ tried.flatMap (Accepted.events left)⟩) := by
  induction cs generalizing store with
  | nil =>
    refine ⟨[], store, rfl, fun answers room events => ?_⟩
    rw [List.flatMap_nil, List.append_nil]
    rfl
  | cons c cs ih =>
    have hmove (answers : ι) (room : Option Nat) :
        ((Desk.outside move delete next).move c.received c.approved).run.run
            ⟨store, answers, room⟩ =
          (((move c.received c.approved).run.run store).1,
            ⟨((move c.received c.approved).run.run store).2, answers, room⟩) := rfl
    rcases h : (move c.received c.approved).run.run store with ⟨⟨e⟩ | ⟨⟨⟩⟩, after⟩
    · obtain ⟨tried, store', hmap, hrun⟩ := ih after
      rw [h] at hmove
      refine ⟨⟨c, some e.text⟩ :: tried, store', congrArg (c :: ·) hmap,
        fun answers room events => ?_⟩
      rw [acceptEach, run_bind_of_eq (run_accept_error hnote (hmove answers room))]
      have hrest := hrun answers room
        (events ++ .moving c.received c.approved :: left (moveFailed c e.text))
      refine (run_bind_of_eq hrest _).trans ?_
      rw [List.flatMap_cons, ← List.append_assoc]
      rfl
    · obtain ⟨tried, store', hmap, hrun⟩ := ih after
      rw [h] at hmove
      refine ⟨⟨c, none⟩ :: tried, store', congrArg (c :: ·) hmap, fun answers room events => ?_⟩
      rw [acceptEach, run_bind_of_eq (run_accept_ok (hmove answers room)),
        run_bind_of_eq (hrun answers room _), List.flatMap_cons, ← List.append_assoc]
      rfl

/-- On a desk a log of records is accepted in the same way whatever the output takes. -/
theorem run_acceptLog_desk (hnote : Leaves (Desk.outside move delete next) note left)
    {lines : List String} {records : List Comparison}
    (hparse : Comparison.parseAll lines = .ok records) (store : σ) :
    ∃ tried store', tried.map Accepted.comparison = records ∧ ∀ answers room events,
      (acceptLog (noting (Desk.outside move delete next) note) lines).run.run
          ⟨⟨store, answers, room⟩, events⟩ =
        (if Fits room (Outcome.of tried).report.length then .ok (Outcome.of tried)
          else .error (.io .outputClosed),
          ⟨⟨store', answers, roomAfter room (Outcome.of tried).report.length⟩,
            events ++ tried.flatMap (Accepted.events left) ++
              (taken room (Outcome.of tried).report).map .said⟩) := by
  obtain ⟨tried, store', hmap, heach⟩ := run_acceptEach_desk hnote records store
  refine ⟨tried, store', hmap, fun answers room events => ?_⟩
  have hall : (ExceptT.lift
      (acceptAll (noting (Desk.outside move delete next) note) records) :
        ExceptT Error (StateM (Traced (Desk σ ι))) Outcome).run.run
          ⟨⟨store, answers, room⟩, events⟩ =
        (.ok (Outcome.of tried),
          ⟨⟨store', answers, room⟩, events ++ tried.flatMap (Accepted.events left)⟩) := by
    rw [ExceptT.run_lift, StateT.run_map, acceptAll, run_bind_of_eq (heach answers room events)]
    rfl
  have hsay := run_sayAll move delete next (Outcome.of tried).report
    ⟨⟨store', answers, room⟩, events ++ tried.flatMap (Accepted.events left)⟩
  rw [deskOutside, ← Outside.sayAll_with_note _ note] at hsay
  rw [acceptLog, hparse]
  dsimp only
  rw [run_bind_ok hall]
  by_cases hfits : Fits room (Outcome.of tried).report.length
  · rw [if_pos hfits] at hsay ⊢
    exact run_bind_ok (run_failing_ok hsay) _
  · rw [if_neg hfits] at hsay ⊢
    exact run_bind_error (run_failing_error hsay) _

end

/-! ## The session -/

namespace Session

variable {ι : Type} {d : Disk} {s : Settings} {next : ExceptT IoError (StateM ι) String}
  {note : Note → StateM (Traced (Desk Disk ι)) Unit} {left : Note → List Event}

/-- Reading the log does nothing else. -/
theorem run_readLog (p : Path) (t : Traced (Desk Disk ι)) :
    (readLog Desk.diskView p).run.run t = ((readLog t.state.store.still p).run, t) := by
  have hcontent : (ExceptT.lift ((Desk.diskView (ι := ι)).content p).run :
      ExceptT Error (StateM (Traced (Desk Disk ι))) (Except IoError Bytes)).run.run t =
        (.ok (t.state.store.still.content p).run, t) := rfl
  have hlift : (ExceptT.lift (t.state.store.still.content p).run :
      ExceptT Error Id (Except IoError Bytes)).run = .ok (t.state.store.still.content p).run := rfl
  rw [readLog, run_bind_ok hcontent, readLog, run_bind_id_ok hlift]
  cases (t.state.store.still.content p).run with
  | error e => rfl
  | ok bytes =>
    dsimp only
    cases Utf8.decode? bytes with
    | none => rfl
    | some text => rfl

/-- Where the log cannot be read the error is one of those about the log, like the refusal of a line
that is no record. -/
theorem faultsLog_of_readLog {p : Path} {e : Error} (h : (readLog d.still p).run = .error e) :
    e.FaultsLog := by
  have hlift : (ExceptT.lift (d.still.content p).run :
      ExceptT Error Id (Except IoError Bytes)).run = .ok (d.still.content p).run := rfl
  rw [readLog, run_bind_id_ok hlift] at h
  split at h
  · rw [← Except.error.inj h]
    trivial
  · split at h
    · rw [← Except.error.inj h]
      trivial
    · cases h

variable (next note left d s) in
/-- How a session that accepts goes on a disk, whatever else is on the desk. -/
inductive Acceptance : Prop where
  /-- the log is at fault, and nothing happens -/
  | refused {e : Error} (faults : e.FaultsLog)
      (run : ∀ t, t.state.store = d →
        (accept Desk.diskView (noting (Desk.outside Disk.move Disk.delete next) note) s).run.run t =
          (.error e, t))
  /-- the log has records, all of which are tried before the report is written -/
  | accepted {lines : List String} {records : List Comparison} {tried : List Accepted}
      {after : Disk} (log : (readLog d.still s.comparisonLogPath).run = .ok lines)
      (spells : List.Forall₂ Comparison.Spells lines records)
      (all : tried.map Accepted.comparison = records)
      (run : ∀ answers room events,
        (accept Desk.diskView (noting (Desk.outside Disk.move Disk.delete next) note) s).run.run
            ⟨⟨d, answers, room⟩, events⟩ =
          (if Fits room (Outcome.of tried).report.length then .ok (Outcome.of tried)
            else .error (.io .outputClosed),
            ⟨⟨after, answers, roomAfter room (Outcome.of tried).report.length⟩,
              events ++ tried.flatMap (Accepted.events left) ++
                (taken room (Outcome.of tried).report).map .said⟩))

/-- Every session that accepts goes in one of the two ways. -/
theorem acceptance_of (hnote : Leaves (Desk.outside Disk.move Disk.delete next) note left)
    (d : Disk) (s : Settings) : Acceptance d s next note left := by
  cases hlog : (readLog d.still s.comparisonLogPath).run with
  | error e =>
    refine .refused (faultsLog_of_readLog hlog) ?_
    rintro t rfl
    have hread := run_readLog s.comparisonLogPath t
    rw [hlog] at hread
    exact run_bind_error hread _
  | ok lines =>
    have hread (t : Traced (Desk Disk ι)) (ht : t.state.store = d) :
        (readLog Desk.diskView s.comparisonLogPath).run.run t = (.ok lines, t) := by
      rw [run_readLog, ht]
      exact congrArg (·, t) hlog
    by_cases hrecords : ∀ line ∈ lines, Comparison.IsRecord line
    · obtain ⟨records, hspells⟩ := Comparison.exists_records hrecords
      obtain ⟨tried, after, hall, hrun⟩ :=
        run_acceptLog_desk hnote (Comparison.parseFrom_of_spells hspells 1) d
      exact .accepted hlog hspells hall fun answers room events =>
        (run_bind_ok (hread ⟨⟨d, answers, room⟩, events⟩ rfl) _).trans
          (hrun answers room events)
    · obtain ⟨before, line, behind, rfl, hbefore, hline⟩ :=
        Comparison.exists_refused (by simpa using hrecords)
      refine .refused (e := .malformedRecord (before.length + 1) line) trivial fun t ht => ?_
      rw [accept, run_bind_ok (hread t ht)]
      exact run_acceptLog_error _ note (Comparison.parseAll_of_refused hbefore hline) t

/-! ## The output -/

/-- What an output that takes `n` lines changes about a session that accepts: `limited` is the
session with this output, and `unlimited` with one that takes every line. -/
structure OutputOnly (d : Disk) (n : Nat)
    (limited unlimited : Except Error Outcome × Traced (Desk Disk ι)) : Prop where
  /-- where the log is at fault nothing happens, the output being of no account -/
  refused : ∀ e, limited.1 = .error e → e.FaultsLog →
    limited.2.state.store = d ∧ limited.2.events = []
  /-- the only other error is that of the output -/
  otherwise : ∀ e, limited.1 = .error e → e.FaultsLog ∨ e = .io .outputClosed
  /-- an output that takes every line leaves the errors of the log only -/
  endless : ∀ e, unlimited.1 = .error e →
    e.FaultsLog ∧ unlimited.2.state.store = d ∧ unlimited.2.events = []
  /-- an output that closes early cuts the report off and leaves all else as it is -/
  cut : limited.1 = .error (.io .outputClosed) → ∃ outcome, unlimited.1 = .ok outcome ∧
    unlimited.2.lines = outcome.report ∧ limited.2.lines = outcome.report.take n ∧
    limited.2.state.store = unlimited.2.state.store ∧ limited.2.moves = unlimited.2.moves ∧
    limited.2.notes = unlimited.2.notes
  /-- an output that takes the whole report changes nothing -/
  whole : (∀ outcome, unlimited.1 = .ok outcome → outcome.report.length ≤ n) →
    limited.1 = unlimited.1 ∧ limited.2.events = unlimited.2.events ∧
      limited.2.state.store = unlimited.2.state.store

/-- A session that accepts shows its output in nothing but the result and the lines. -/
theorem acceptOn_outputOnly (next : ExceptT IoError (StateM ι) String) (s : Settings) (d : Disk)
    (answers : ι) (n : Nat) :
    OutputOnly d n (acceptOn next s (.start ⟨d, answers, some n⟩))
      (acceptOn next s (.start ⟨d, answers, none⟩)) := by
  rcases acceptance_of (leaves_noted (Desk.outside Disk.move Disk.delete next)) d s with
    @⟨e, hfaults, hrun⟩ | @⟨lines, records, tried, after, -, -, -, hrun⟩
  · have hlimited : acceptOn next s (.start ⟨d, answers, some n⟩) =
        (.error e, .start ⟨d, answers, some n⟩) := hrun _ rfl
    have hunlimited : acceptOn next s (.start ⟨d, answers, none⟩) =
        (.error e, .start ⟨d, answers, none⟩) := hrun _ rfl
    rw [hlimited, hunlimited]
    constructor
    · exact fun _ _ _ => ⟨rfl, rfl⟩
    · intro e' he
      exact .inl (Except.error.inj he ▸ hfaults)
    · intro e' he
      exact ⟨Except.error.inj he ▸ hfaults, rfl, rfl⟩
    · intro he
      rw [Except.error.inj he] at hfaults
      cases hfaults
    · exact fun _ => ⟨rfl, rfl, rfl⟩
  · have hlimited : acceptOn next s (.start ⟨d, answers, some n⟩) = _ := hrun answers (some n) []
    have hunlimited : acceptOn next s (.start ⟨d, answers, none⟩) = _ := hrun answers none []
    rw [if_pos (fits_none _)] at hunlimited
    by_cases hfits : Fits (some n) (Outcome.of tried).report.length
    · -- the whole report is written
      rw [if_pos hfits, taken_of_fits hfits] at hlimited
      rw [hlimited, hunlimited]
      constructor
      · exact fun _ he => absurd he nofun
      · exact fun _ he => absurd he nofun
      · exact fun _ he => absurd he nofun
      · exact fun he => absurd he nofun
      · exact fun _ => ⟨rfl, rfl, rfl⟩
    · rw [if_neg hfits] at hlimited
      rw [hlimited, hunlimited]
      constructor
      · intro e he hfaults
        rw [← Except.error.inj he] at hfaults
        cases hfaults
      · intro e he
        exact .inr (Except.error.inj he).symm
      · exact fun _ he => absurd he nofun
      · intro _
        -- both traces tell of the same records, and differ in the lines behind them
        have hlines (lines : List String) :
            ([] ++ tried.flatMap (Accepted.events fun n => [.noted n]) ++
              lines.map Event.said).filterMap Event.line? = lines := by
          rw [filterMap_line?_append_said, List.nil_append, lines_of_tried, List.nil_append]
        exact ⟨Outcome.of tried, rfl, hlines _, hlines _, rfl,
          (filterMap_move?_append_said _ _).trans (filterMap_move?_append_said _ _).symm,
          (filterMap_note?_append_said _ _).trans (filterMap_note?_append_said _ _).symm⟩
      · exact fun hwhole => absurd (hwhole _ rfl) hfits

end Session

end Baseline
