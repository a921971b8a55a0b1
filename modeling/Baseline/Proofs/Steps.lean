import Mathlib.Control.Basic

/-!
# Steps that succeed or fail

A run is taken apart step by step and never unfolded as a whole. It goes on behind a step that
succeeds and ends at one that fails: `run_bind_ok` and `run_bind_error` say so of steps on a state,
`run_bind_id_ok` of steps without one. The `…_iff` lemmas go the other way, from a success of the
whole to the success of its parts, and from a failure of the whole to the part that fails.
-/

namespace Baseline

variable {ε δ α β : Type}

/-- A step that is followed by another succeeds only if both do. -/
theorem bind_eq_ok_iff {x : Except ε α} {f : α → Except ε β} {b : β} :
    (x >>= f) = .ok b ↔ ∃ a, x = .ok a ∧ f a = .ok b := by
  cases x with
  | error e => exact ⟨nofun, fun ⟨_, h, _⟩ => nomatch h⟩
  | ok a => exact ⟨fun h => ⟨a, rfl, h⟩, fun ⟨_, h, hf⟩ => Except.ok.inj h ▸ hf⟩

/-- It fails if the first does, or if the second does behind the first. -/
theorem bind_eq_error_iff {x : Except ε α} {f : α → Except ε β} {e : ε} :
    (x >>= f) = .error e ↔ x = .error e ∨ ∃ a, x = .ok a ∧ f a = .error e := by
  cases x with
  | error refused => simp [bind, Except.bind]
  | ok a => simp [bind, Except.bind]

theorem run_bind_id_ok {x : ExceptT ε Id α} {a : α} (h : x.run = .ok a) (f : α → ExceptT ε Id β) :
    (x >>= f).run = (f a).run := by
  rw [ExceptT.run_bind, h]
  rfl

theorem run_bind_eq_ok_iff {x : ExceptT ε Id α} {f : α → ExceptT ε Id β} {b : β} :
    (x >>= f).run = .ok b ↔ ∃ a, x.run = .ok a ∧ (f a).run = .ok b := by
  rw [ExceptT.run_bind]
  cases x.run with
  | error e => exact ⟨nofun, fun ⟨_, h, _⟩ => nomatch h⟩
  | ok a => exact ⟨fun h => ⟨a, rfl, h⟩, fun ⟨_, h, hf⟩ => Except.ok.inj h ▸ hf⟩

theorem run_bind_of_eq {x : StateM δ α} {s s' : δ} {a : α} (h : x.run s = (a, s'))
    (f : α → StateM δ β) : (x >>= f).run s = (f a).run s' := by
  rw [StateT.run_bind, h]
  rfl

theorem run_bind_ok {x : ExceptT ε (StateM δ) α} {s s' : δ} {a : α}
    (h : x.run.run s = (.ok a, s')) (f : α → ExceptT ε (StateM δ) β) :
    (x >>= f).run.run s = (f a).run.run s' := by
  rw [ExceptT.run_bind, StateT.run_bind, h]
  rfl

theorem run_bind_error {x : ExceptT ε (StateM δ) α} {s s' : δ} {e : ε}
    (h : x.run.run s = (.error e, s')) (f : α → ExceptT ε (StateM δ) β) :
    (x >>= f).run.run s = (.error e, s') := by
  rw [ExceptT.run_bind, StateT.run_bind, h]
  rfl

end Baseline
