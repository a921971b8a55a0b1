import Baseline.Proofs.Comparison.LastTouch

/-!
# Running a batch again

A path is `Spent` if nothing can be moved away from it any more: it is refused, or nothing is there.
A record leaves its own source spent, whether it is moved or fails (`Fares.spent_received`), and it
leaves every spent path spent but for its destination (`Fares.spent`). So if no source is a
destination, all sources are spent behind a first run, however often they or the destinations are
repeated (`MovesFlat.run_acceptEach_spends`).

A record whose source is spent fails and changes nothing (`Fares.of_spent`), so a run that begins
with all sources spent ends with the store that it began with
(`MovesFlat.run_acceptAll_of_spent`), and so does every further one.
-/

namespace Baseline

variable {δ γ : Type}

/-- Nothing can be moved away from a path: it is refused, or nothing is there. -/
def Spent (refused : String → Prop) (s : FlatStore γ) (path : String) : Prop :=
  refused path ∨ s.get? path = none

/-- The state behind some runs of the same batch. -/
def behindRuns (o : Outside (StateM δ)) (records : List Comparison) : Nat → δ → δ
  | 0, d => d
  | runs + 1, d => ((acceptAll o records).run (behindRuns o records runs d)).2

/-! ## One record -/

namespace Fares

variable {refused : String → Prop} {s s' : FlatStore γ} {a : Accepted} {path : String}

/-- Behind a record its own source is spent. -/
theorem spent_received (h : Fares refused s a s')
    (hne : a.comparison.received ≠ a.comparison.approved) :
    Spent refused s' a.comparison.received := by
  cases h with
  | moved _ _ hmoved =>
    right
    rw [hmoved, if_neg hne, if_pos rfl]
  | kept hspent => exact hspent

/-- What is spent stays spent, unless it is the destination. -/
theorem spent (h : Fares refused s a s') (hne : path ≠ a.comparison.approved)
    (hspent : Spent refused s path) : Spent refused s' path := by
  cases h with
  | moved _ _ hmoved =>
    apply hspent.imp_right
    intro hnone
    rw [hmoved, if_neg hne, hnone, ite_self]
  | kept _ => exact hspent

/-- A record with a spent source fails, and the store stays as it is. -/
theorem of_spent (h : Fares refused s a s') (hspent : Spent refused s a.comparison.received) :
    a.failure ≠ none ∧ s' = s := by
  cases h with
  | moved haccepts hget _ =>
    rcases hspent with hrefused | hnone
    · exact absurd hrefused haccepts
    · exact nomatch hget.symm.trans hnone
  | kept _ => exact ⟨Option.some_ne_none _, rfl⟩

end Fares

/-! ## One run -/

namespace MovesFlat

variable {o : Outside (StateM δ)} {files : δ → FlatStore γ} {refused : String → Prop}

/-- Behind a run a path that is no destination is spent if it was so before, or if it is the source
of a record. -/
theorem run_acceptEach_spends (h : MovesFlat o files refused) (records : List Comparison) (d : δ)
    {path : String} (hpath : ∀ c ∈ records, path ≠ c.approved)
    (hspent : Spent refused (files d) path ∨ ∃ c ∈ records, c.received = path) :
    Spent refused (files ((acceptEach o records).run d).2) path := by
  induction records generalizing d with
  | nil =>
    rcases hspent with hspent | ⟨c, hc, -⟩
    · exact hspent
    · exact absurd hc List.not_mem_nil
  | cons c records ih =>
    obtain ⟨hhead, htail⟩ := List.forall_mem_cons.1 hpath
    obtain ⟨a, d', hrun, rfl, hfares⟩ := h.run_accept c d
    have hrest : ((acceptEach o (a.comparison :: records)).run d).2 =
        ((acceptEach o records).run d').2 := by
      rw [acceptEach, run_bind_of_eq hrun]
      rfl
    rw [hrest]
    refine ih d' htail ?_
    -- the first record spends the path, leaves it spent, or leaves it to those behind it
    rcases hspent with hspent | ⟨other, hother, rfl⟩
    · exact .inl (hfares.spent hhead hspent)
    · rcases List.mem_cons.1 hother with rfl | hother
      · exact .inl (hfares.spent_received hhead)
      · exact .inr ⟨other, hother, rfl⟩

/-- A run that begins with all sources spent fails throughout, and the store stays as it is. -/
theorem run_acceptEach_of_spent (h : MovesFlat o files refused) (records : List Comparison) (d : δ)
    (hspent : ∀ c ∈ records, Spent refused (files d) c.received) :
    ∃ tried d', (acceptEach o records).run d = (tried, d') ∧
      tried.map Accepted.comparison = records ∧ (∀ a ∈ tried, a.failure ≠ none) ∧
      files d' = files d := by
  induction records generalizing d with
  | nil => exact ⟨[], d, rfl, rfl, by simp, rfl⟩
  | cons c records ih =>
    obtain ⟨hhead, htail⟩ := List.forall_mem_cons.1 hspent
    obtain ⟨a, d', hrun, rfl, hfares⟩ := h.run_accept c d
    obtain ⟨hfails, hsame⟩ := hfares.of_spent hhead
    rw [← hsame] at htail
    obtain ⟨tried, d'', hrest, hrecords, hfail, hsame'⟩ := ih d' htail
    refine ⟨a :: tried, d'', ?_, ?_, List.forall_mem_cons.2 ⟨hfails, hfail⟩, hsame'.trans hsame⟩
    · rw [acceptEach, run_bind_of_eq hrun, run_bind_of_eq hrest]
      rfl
    · rw [List.map_cons, hrecords]

end MovesFlat

/-- Where every record fails, none is replaced and all are reported, in order. -/
theorem Outcome.of_fails {tried : List Accepted} (h : ∀ a ∈ tried, a.failure ≠ none) :
    (Outcome.of tried).approved = [] ∧
      (Outcome.of tried).failed.map FailedMove.approved =
        tried.map (·.comparison.approved) := by
  rw [Outcome.of]
  dsimp only
  induction tried with
  | nil => exact ⟨rfl, rfl⟩
  | cons a tried ih =>
    obtain ⟨hhead, htail⟩ := List.forall_mem_cons.1 h
    obtain ⟨reason, hreason⟩ := Option.ne_none_iff_exists'.1 hhead
    obtain ⟨happroved, hfailed⟩ := ih htail
    simp [hreason, happroved, hfailed]

namespace MovesFlat

variable {o : Outside (StateM δ)} {files : δ → FlatStore γ} {refused : String → Prop}
  {records : List Comparison} {d : δ}

/-- A batch all of whose sources are spent approves nothing: every record fails, and the store is as
it was, so the same holds of the next run. -/
theorem run_acceptAll_of_spent (h : MovesFlat o files refused)
    (hspent : ∀ c ∈ records, Spent refused (files d) c.received) :
    ∃ failed d', (acceptAll o records).run d = (⟨records.length, [], failed⟩, d') ∧
      failed.map FailedMove.approved = records.map Comparison.approved ∧ files d' = files d := by
  obtain ⟨tried, d', hrun, rfl, hfails, hsame⟩ := h.run_acceptEach_of_spent records d hspent
  obtain ⟨happroved, hfailed⟩ := Outcome.of_fails hfails
  refine ⟨(Outcome.of tried).failed, d', ?_, ?_, hsame⟩
  · rw [acceptAll, run_bind_of_eq hrun, List.length_map, ← happroved]
    rfl
  · rw [hfailed, List.map_map]
    rfl

/-- If no source is a destination, a first run leaves every source spent. -/
theorem spent_storeBehind (h : MovesFlat o files refused)
    (hapart : ∀ c ∈ records, ∀ other ∈ records, c.received ≠ other.approved) (d : δ) :
    ∀ c ∈ records, Spent refused (storeBehind o files d records) c.received := by
  intro c hc
  apply h.run_acceptEach_spends records d (hapart c hc)
  exact .inr ⟨c, hc, rfl⟩

end MovesFlat

/-! ## Every further run -/

section

variable {o : Outside (StateM δ)} {files : δ → FlatStore γ} {refused : String → Prop}

/-- **A batch can be run again without harm.** If no source of its records is a destination of one,
a batch on a flat store does all that it ever does in its first run: the store behind every further
run is the one behind the first, and in each of them no baseline is replaced and every record is
reported as failed, in order. -/
theorem acceptAll_rerun (hmoves : MovesFlat o files refused) {records : List Comparison}
    (hapart : ∀ c ∈ records, ∀ other ∈ records, c.received ≠ other.approved) (d : δ) (runs : Nat) :
    files (behindRuns o records (runs + 1) d) = storeBehind o files d records ∧
      ∃ failed d', (acceptAll o records).run (behindRuns o records (runs + 1) d) =
          (⟨records.length, [], failed⟩, d') ∧
        failed.map FailedMove.approved = records.map Comparison.approved ∧
        files d' = storeBehind o files d records := by
  have hspent := hmoves.spent_storeBehind hapart d
  -- on the runs: each begins with the sources that the first has spent
  have hbehind : files (behindRuns o records (runs + 1) d) = storeBehind o files d records := by
    induction runs with
    | zero => rfl
    | succ runs ih =>
      rw [← ih] at hspent
      obtain ⟨failed, d', hrun, -, hsame⟩ := hmoves.run_acceptAll_of_spent hspent
      rw [behindRuns, hrun, ← ih]
      exact hsame
  rw [← hbehind] at hspent
  obtain ⟨failed, d', hrun, hfailed, hsame⟩ := hmoves.run_acceptAll_of_spent hspent
  exact ⟨hbehind, failed, d', hrun, hfailed, hsame.trans hbehind⟩

end

/-- Records that share a source, a destination, or both; one is refused, and one has nothing at its
source. -/
def overlapping : List Comparison :=
  [⟨"a", "c"⟩, ⟨"b", "c"⟩, ⟨"a", "z"⟩, ⟨"x", "y"⟩, ⟨"gone", "y"⟩, ⟨"b", "c"⟩]

/-- The first run of the overlapping records moves two files, and none of four more moves any. -/
theorem acceptAll_rerun_overlapping :
    MovesFlat fourFilesOutside Desk.store (fun path => (refusesX path).isSome = true) ∧
      (∀ c ∈ overlapping, ∀ other ∈ overlapping, c.received ≠ other.approved) ∧
      ((acceptAll fourFilesOutside overlapping).run fourFiles).1.approved = ["c", "c"] ∧
      storeBehind fourFilesOutside Desk.store fourFiles overlapping =
        ⟨[("c", "second"), ("x", "third"), ("z", "fourth")]⟩ ∧
      (behindRuns fourFilesOutside overlapping 4 fourFiles).store =
        storeBehind fourFilesOutside Desk.store fourFiles overlapping ∧
      ∃ failed d', (acceptAll fourFilesOutside overlapping).run
          (behindRuns fourFilesOutside overlapping 4 fourFiles) = (⟨6, [], failed⟩, d') ∧
        failed.map FailedMove.approved = overlapping.map Comparison.approved ∧
        d'.store = storeBehind fourFilesOutside Desk.store fourFiles overlapping := by
  have hmoves : MovesFlat fourFilesOutside Desk.store fun path => (refusesX path).isSome = true :=
    FlatStore.movesFlat refusesX (FlatStore.delete refusesX) Script.next
  have hapart : ∀ c ∈ overlapping, ∀ other ∈ overlapping, c.received ≠ other.approved := by
    decide
  exact ⟨hmoves, hapart, by decide +kernel, by decide +kernel,
    acceptAll_rerun hmoves hapart fourFiles 3⟩

/-- Where a destination is a source as well, a second run moves on what the first has put there. -/
example :
    ((acceptAll fourFilesOutside [⟨"c", "d"⟩, ⟨"a", "c"⟩]).run
      (behindRuns fourFilesOutside [⟨"c", "d"⟩, ⟨"a", "c"⟩] 1 fourFiles)).1.approved = ["d"] := by
  decide +kernel

end Baseline
