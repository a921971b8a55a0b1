import Baseline.Proofs.Comparison.Batch

/-!
# An output that does not fail

What an output takes may depend on its state, and a line that it takes changes the state.
`Unfailing` says of a state that no line fails from there on, however many are written: an output
without a limit is in such a state, and stays in one. Lines that are written there are there
afterwards, each of them and in order (`written_eq`).
-/

namespace Baseline

variable {δ : Type} {o : Outside (StateM δ)} {s s' : δ}

/-- From a state on, the output takes every line. -/
def Unfailing (o : Outside (StateM δ)) (s : δ) : Prop :=
  ∃ fine : δ → Prop, fine s ∧ ∀ s line, fine s →
    ∃ s', (o.say line).run.run s = (.ok (), s') ∧ fine s'

/-- The lines that are there once some lines were written from a state on. -/
def written (o : Outside (StateM δ)) (lines : List String) (s : δ) : List String :=
  (((Traced.outside o).sayAll lines).run.run (.start s)).2.lines

/-- On an output that never fails all lines are written. -/
theorem Writes.eq_of_unfailing {lines taken : List String} {ended : Except IoError Unit}
    (h : Writes o lines s taken ended s') (hs : Unfailing o s) : taken = lines := by
  obtain ⟨fine, hs, htakes⟩ := hs
  induction h with
  | done => rfl
  | failed hfails =>
    obtain ⟨_, hsay, -⟩ := htakes _ _ hs
    cases hfails.symm.trans hsay
  | went hwent _ ih =>
    obtain ⟨_, hsay, hnext⟩ := htakes _ _ hs
    cases hwent.symm.trans hsay
    rw [ih hnext]

/-- What is written is there. -/
theorem written_eq (h : Unfailing o s) (lines : List String) : written o lines s = lines := by
  obtain ⟨taken, ended, s', hwrites, hrun⟩ :=
    run_sayAll_of o (Traced.outside o).note lines (.start s)
  have htrace : ((Traced.outside o).sayAll lines).run.run (.start s) =
      (ended, ⟨s', [] ++ taken.map .said⟩) := hrun
  rw [written, htrace, Traced.lines, filterMap_line?_append_said, hwrites.eq_of_unfailing h]
  rfl

/-- A desk whose output has no limit takes every line. -/
theorem unfailing_desk {σ ι : Type} (move : String → String → ExceptT IoError (StateM σ) Unit)
    (delete : String → ExceptT IoError (StateM σ) Unit) (next : ExceptT IoError (StateM ι) String)
    (store : σ) (answers : ι) :
    Unfailing (Desk.outside move delete next) ⟨store, answers, none⟩ := by
  refine ⟨fun d => d.room = none, rfl, ?_⟩
  rintro ⟨store, answers, room⟩ line hroom
  obtain rfl : room = none := hroom
  exact ⟨⟨store, answers, none⟩, rfl, rfl⟩

/-- A desk on which nothing can be done but writing. -/
def bareDesk : Outside (StateM (Desk Unit Script)) :=
  Desk.outside (fun _ _ => pure ()) (fun _ => pure ()) Script.next

/-- Such a desk with an output that has no limit. -/
def emptyDesk : Desk Unit Script := ⟨(), ⟨[]⟩, none⟩

theorem unfailing_bareDesk : Unfailing bareDesk emptyDesk := unfailing_desk _ _ _ _ _

end Baseline
