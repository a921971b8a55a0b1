import Baseline.Proofs.Session.Survey

/-!
# Dry runs foretell

What a dry run of a disk gives is what every other sweep of the same disk goes by. All modes survey
the disk alike, so either all of them fail before they write a line, or all of them list the same
strays (`sweepOn_foretold`). From the listing on there are two ways only:

* the strays are kept (`Keeps`), by a dry run and by a refusal;
* the strays are deleted in order up to the first failure (`Clears`), without a question and by
  consent.

A question that is put is one more line behind the listing, and makes no other difference.
-/

namespace Baseline.Session

variable {ι : Type}

section

variable (next : ExceptT IoError (StateM ι) String) (s : Settings) (d : Disk)

/-- A sweep of a disk, with an output that takes every line. -/
def sweepFrom (mode : Mode) (answers : ι) : Except Error Sweep × Traced (Desk Disk ι) :=
  sweepOn next s mode (.start ⟨d, answers, none⟩)

end

/-- The question of a sweep: a line of its own, if the sweep prompts and has something to delete. -/
def questionOf (mode : Mode) (found : List String) : List String :=
  if mode = .prompt ∧ found ≠ [] then [Sweep.question] else []

/-- The sweep of a disk lists some strays and keeps them. -/
structure Keeps (d : Disk) (mode : Mode) (found : List String)
    (run : Except Error Sweep × Traced (Desk Disk ι)) : Prop where
  /-- none of the strays is deleted -/
  result : run.1 = .ok ⟨found, 0⟩
  /-- the disk is as it was -/
  store : run.2.state.store = d
  /-- no deletion is tried -/
  deletions : run.2.deletions = []
  /-- the question, if it is put, comes directly behind the listing -/
  lines : run.2.lines = listing found ++ questionOf mode found ++ [Sweep.keptLine]

variable {s : Settings} {d : Disk} {mode mode' : Mode} {found : List String}
  {run run' : Except Error Sweep × Traced (Desk Disk ι)}

@[simp] theorem questionOf_nil (mode : Mode) : questionOf mode [] = [] := by
  simp [questionOf]

/-- The survey of a disk succeeds, and these are its strays. -/
def Lists (s : Settings) (d : Disk) (found : List String) : Prop :=
  ∃ touched finds, d.survey s = .ok (touched, finds) ∧
    found = strays touched (finds.filterMap Path.text?)

section

variable (next : ExceptT IoError (StateM ι) String)

/-- The course of a sweep from its listing on, on an output that takes every line. -/
theorem course_of_lists (h : Lists s d found) (mode : Mode) (answers : ι) :
    ∃ c : Sweep.Course,
      c.Accounts Disk.delete next mode found ⟨d, answers, none⟩
        (sweepFrom next s d mode answers).1 (sweepFrom next s d mode answers).2.state ∧
      (sweepFrom next s d mode answers).2.deletions = c.tried ∧
      (sweepFrom next s d mode answers).2.timesAsked = (if c.asks then 1 else 0) ∧
      (sweepFrom next s d mode answers).2.lines =
        listing found ++ questionOf mode found ++ c.closing := by
  obtain ⟨touched, finds, hsurvey, rfl⟩ := h
  have hsurvey' : (⟨d, answers, none⟩ : Desk Disk ι).store.survey s = .ok (touched, finds) :=
    hsurvey
  obtain ⟨remarks, c, result, after, hremarks, haccounts, hsweep⟩ :=
    sweepOn_eq_of_survey next mode hsurvey'
  rw [sweepFrom, hsweep]
  refine ⟨c, haccounts, ?_, ?_, ?_⟩
  · rw [Traced.deletions, List.filterMap_append, hremarks.deletions_eq, c.deletions_events,
      List.nil_append]
  · rw [Traced.timesAsked, List.count_append, hremarks.count_asked, c.count_asked_events,
      Nat.zero_add]
  · -- the question is put wherever there is one, since every line is taken
    have hasks : (if c.asks then [Sweep.question] else []) =
        questionOf mode (strays touched (finds.filterMap Path.text?)) := by
      simp only [haccounts.asks, Sweep.Asks, Fits, and_true, questionOf]
    have hlisted : c.listed = listing (strays touched (finds.filterMap Path.text?)) :=
      haccounts.listed
    rw [Traced.lines, List.filterMap_append, hremarks.lines_eq, c.lines_events, hasks, hlisted,
      List.nil_append]

/-- A sweep that spares everything leaves the disk as it is and says so. Its result has the strays
like that of any other sweep, with the number of deletions at zero. -/
theorem keeps_of_spared (h : Lists s d found) {answers : ι}
    (hspared : Sweep.Spared next mode found (⟨d, answers, none⟩ : Desk Disk ι)) :
    Keeps d mode found (sweepFrom next s d mode answers) := by
  obtain ⟨c, haccounts, htried, -, hlines⟩ := course_of_lists next h mode answers
  obtain ⟨hclosing, hresult⟩ := haccounts.spares hspared
  obtain ⟨hnone, hstore⟩ := haccounts.untouched hspared.not_allowed
  exact ⟨hresult, hstore, htried.trans hnone, hlines.trans (congrArg _ hclosing)⟩

theorem keeps_nothing (h : Lists s d []) (mode : Mode) (answers : ι) :
    Keeps d mode [] (sweepFrom next s d mode answers) :=
  keeps_of_spared next h ⟨trivial, .inl rfl⟩

/-- With nothing to delete no answer is read. So a preview of an empty sweep is the sweep itself. -/
theorem unasked (h : Lists s d []) (mode : Mode) (answers : ι) :
    (sweepFrom next s d mode answers).2.timesAsked = 0 ∧
      (sweepFrom next s d mode answers).2.state.answers = answers := by
  obtain ⟨c, haccounts, -, htimes, -⟩ := course_of_lists next h mode answers
  have hasks : c.asks = false :=
    Bool.eq_false_iff.2 fun hasks => (haccounts.asks.1 hasks).2.1 rfl
  exact ⟨htimes.trans (by simp [hasks]), haccounts.answers.trans (by simp [hasks])⟩

end

end Baseline.Session
