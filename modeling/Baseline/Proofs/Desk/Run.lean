import Baseline.Desk
import Baseline.Proofs.Steps
import Mathlib.Data.List.Basic

/-!
# Runs on a desk

What the requests of a run come to on a desk whose effects are on record. Each request has one
equation, and the two loops have one law each:

* `run_sayAll`: lines are written in order as long as there is room, and the loop fails exactly
  where the room ends before the lines do;
* `run_deleteAll`: deletions are tried in order up to the first one that fails (`Deletions`).
-/

namespace Baseline

/-! ## Failures that end a run -/

section

variable {δ α : Type}

theorem run_failing (x : ExceptT IoError (StateM δ) α) (s : δ) :
    (failing x).run.run s = ((x.run.run s).1.mapError Error.io, (x.run.run s).2) := rfl

theorem run_failing_ok {x : ExceptT IoError (StateM δ) α} {s s' : δ} {a : α}
    (h : x.run.run s = (.ok a, s')) : (failing x).run.run s = (.ok a, s') := by
  rw [run_failing, h]
  rfl

/-- A failure of the outside ends the run with the same error, told as one of input and output, and
in the same state. -/
theorem run_failing_error {x : ExceptT IoError (StateM δ) α} {s s' : δ} {e : IoError}
    (h : x.run.run s = (.error e, s')) : (failing x).run.run s = (.error (.io e), s') := by
  rw [run_failing, h]
  rfl

end

/-! ## Room for lines -/

/-- Whether an output with so much room takes so many lines. -/
def Fits : Option Nat → Nat → Prop
  | none, _ => True
  | some limit, n => n ≤ limit

/-- The lines that an output with so much room takes. -/
def taken : Option Nat → List String → List String
  | none, lines => lines
  | some limit, lines => lines.take limit

/-- The room behind so many lines. -/
def roomAfter (room : Option Nat) (n : Nat) : Option Nat := room.map (· - n)

instance (room : Option Nat) (n : Nat) : Decidable (Fits room n) :=
  match room with
  | none => isTrue trivial
  | some limit => inferInstanceAs (Decidable (n ≤ limit))

theorem fits_none (n : Nat) : Fits none n := trivial

/-- Room is used up line by line, so writing in two parts leaves as much as writing at once. -/
theorem roomAfter_add (room : Option Nat) (m n : Nat) :
    roomAfter (roomAfter room m) n = roomAfter room (m + n) := by
  cases room with
  | none => rfl
  | some limit => simp only [roomAfter, Option.map_some, Nat.sub_sub]

/-- All that fits is taken. -/
theorem taken_of_fits {room : Option Nat} {lines : List String} (h : Fits room lines.length) :
    taken room lines = lines := by
  cases room with
  | none => rfl
  | some limit => exact List.take_of_length_le h

/-- Two reports fit if the first does, and the second fits behind it. -/
theorem fits_add {room : Option Nat} {m n : Nat} :
    Fits room (m + n) ↔ Fits room m ∧ Fits (roomAfter room m) n := by
  cases room with
  | none => simp [Fits, roomAfter]
  | some limit =>
    simp only [Fits, roomAfter, Option.map_some]
    omega

/-! ## Requests -/

section

variable {σ ι : Type} (move : String → String → ExceptT IoError (StateM σ) Unit)
  (delete : String → ExceptT IoError (StateM σ) Unit) (next : ExceptT IoError (StateM ι) String)

/-- The outside of a desk, with every effect on record. -/
def deskOutside : Outside (StateM (Traced (Desk σ ι))) :=
  Traced.outside (Desk.outside move delete next)

/-- To ask is on record, reads one answer, and touches neither the store nor the room for lines. -/
theorem run_ask (t : Traced (Desk σ ι)) :
    (deskOutside move delete next).ask.run.run t =
      ((next.run.run t.state.answers).1,
        ⟨{ t.state with answers := (next.run.run t.state.answers).2 }, t.events ++ [.asked]⟩) :=
  rfl

/-- To delete is on record even where it fails, and whatever the store does, the room and the
answers stay as they are. -/
theorem run_delete (path : String) (t : Traced (Desk σ ι)) :
    ((deskOutside move delete next).delete path).run.run t =
      (((delete path).run.run t.state.store).1,
        ⟨{ t.state with store := ((delete path).run.run t.state.store).2 },
          t.events ++ [.deleting path]⟩) :=
  rfl

variable {move delete next}

/-- While there is room a line is written, is on record and takes one place. -/
theorem run_say_of_fits {t : Traced (Desk σ ι)} (h : Fits t.state.room 1) (line : String) :
    ((deskOutside move delete next).say line).run.run t =
      (.ok (), ⟨{ t.state with room := roomAfter t.state.room 1 }, t.events ++ [.said line]⟩) := by
  obtain ⟨⟨store, answers, room⟩, events⟩ := t
  cases room with
  | none => rfl
  | some limit =>
    cases limit with
    | zero => exact absurd h (Nat.not_succ_le_zero 0)
    | succ n => rfl

/-- Without room nothing is on record and nothing changes, so every later line fails as well. -/
theorem run_say_of_not_fits {t : Traced (Desk σ ι)} (h : ¬ Fits t.state.room 1) (line : String) :
    ((deskOutside move delete next).say line).run.run t = (.error .outputClosed, t) := by
  obtain ⟨⟨store, answers, room⟩, events⟩ := t
  cases room with
  | none => exact absurd trivial h
  | some limit =>
    cases limit with
    | zero => rfl
    | succ n => exact absurd (Nat.succ_le_succ (Nat.zero_le n)) h

/-! ## Writing lines -/

variable (move delete next) in
/-- Lines are written in order, as far as there is room. -/
theorem run_sayAll (lines : List String) (t : Traced (Desk σ ι)) :
    ((deskOutside move delete next).sayAll lines).run.run t =
      (if Fits t.state.room lines.length then .ok () else .error .outputClosed,
        ⟨{ t.state with room := roomAfter t.state.room lines.length },
          t.events ++ (taken t.state.room lines).map .said⟩) := by
  induction lines generalizing t with
  | nil =>
    obtain ⟨⟨store, answers, room⟩, events⟩ := t
    cases room with
    | none => simp only [List.length_nil, Fits, taken, List.map_nil, List.append_nil]; rfl
    | some limit =>
      simp only [List.length_nil, Fits, Nat.zero_le, if_true, taken, List.take_nil, List.map_nil,
        List.append_nil]
      rfl
  | cons line lines ih =>
    rw [Outside.sayAll]
    -- without room for this line there is room for none
    by_cases h : Fits t.state.room 1
    · rw [run_bind_ok (run_say_of_fits h line), ih]
      obtain ⟨⟨store, answers, room⟩, events⟩ := t
      cases room with
      | none => simp [Fits, taken, roomAfter]
      | some limit =>
        obtain ⟨n, rfl⟩ : ∃ n, limit = n + 1 := ⟨limit - 1, by simp only [Fits] at h; omega⟩
        by_cases hn : lines.length ≤ n <;> simp [Fits, taken, roomAfter, hn]
    · rw [run_bind_error (run_say_of_not_fits h line)]
      obtain ⟨⟨store, answers, room⟩, events⟩ := t
      cases room with
      | none => exact absurd trivial h
      | some limit =>
        obtain rfl : limit = 0 := by simp only [Fits] at h; omega
        simp [Fits, taken, roomAfter]

/-! ## Deleting files -/

/-- `Deletions delete paths s tried ended s'`: of `paths` the ones in `tried` are deleted in order,
from the store `s` to the store `s'`, and it ends as `ended` says. -/
inductive Deletions (delete : String → ExceptT IoError (StateM σ) Unit) :
    List String → σ → List String → Except IoError Unit → σ → Prop where
  /-- nothing is left to delete -/
  | done (s : σ) : Deletions delete [] s [] (.ok ()) s
  /-- a deletion fails, and those behind it are not tried -/
  | failed {path : String} {paths : List String} {s s' : σ} {e : IoError}
      (h : (delete path).run.run s = (.error e, s')) :
      Deletions delete (path :: paths) s [path] (.error e) s'
  /-- a deletion succeeds, and those behind it follow -/
  | went {path : String} {paths tried : List String} {s s' s'' : σ} {ended : Except IoError Unit}
      (h : (delete path).run.run s = (.ok (), s'))
      (rest : Deletions delete paths s' tried ended s'') :
      Deletions delete (path :: paths) s (path :: tried) ended s''

variable (move delete next) in
/-- Deletions are tried in order, up to the first one that fails. -/
theorem run_deleteAll (paths : List String) (t : Traced (Desk σ ι)) :
    ∃ tried ended store, Deletions delete paths t.state.store tried ended store ∧
      ((deskOutside move delete next).deleteAll paths).run.run t =
        (ended, ⟨{ t.state with store := store }, t.events ++ tried.map .deleting⟩) := by
  induction paths generalizing t with
  | nil =>
    refine ⟨[], .ok (), _, .done _, ?_⟩
    rw [List.map_nil, List.append_nil]
    rfl
  | cons path paths ih =>
    rw [Outside.deleteAll]
    rcases h : (delete path).run.run t.state.store with ⟨⟨e⟩ | ⟨⟨⟩⟩, store⟩
    · have hrun := run_delete move delete next path t
      rw [h] at hrun
      exact ⟨[path], .error e, store, .failed h, run_bind_error hrun _⟩
    · have hrun := run_delete move delete next path t
      rw [h] at hrun
      obtain ⟨tried, ended, store', hrest, hloop⟩ :=
        ih ⟨{ t.state with store := store }, t.events ++ [.deleting path]⟩
      refine ⟨path :: tried, ended, store', .went h hrest, ?_⟩
      rw [run_bind_ok hrun, hloop]
      simp

namespace Deletions

variable {paths tried : List String} {s s' : σ} {ended : Except IoError Unit}

/-- If no deletion fails, all are tried. -/
theorem tried_eq (h : Deletions delete paths s tried ended s') (hok : ended = .ok ()) :
    tried = paths := by
  induction h with
  | done => rfl
  | failed => cases hok
  | went _ _ ih => rw [ih hok]

/-- Deletions are tried in the order of the paths, up to the first that fails, which is tried as
well. -/
theorem tried_prefix (h : Deletions delete paths s tried ended s') : tried <+: paths := by
  induction h with
  | done => exact List.nil_prefix
  | failed => exact List.prefix_cons_iff.2 (.inr ⟨[], rfl, List.nil_prefix⟩)
  | went _ _ ih => exact List.cons_prefix_cons.2 ⟨rfl, ih⟩

/-- If one fails, it is the last one tried, and those before it succeeded. -/
theorem tried_eq_of_error {e : IoError} (h : Deletions delete paths s tried ended s')
    (herr : ended = .error e) :
    ∃ before path behind store, paths = before ++ path :: behind ∧ tried = before ++ [path] ∧
      Deletions delete before s before (.ok ()) store ∧
      (delete path).run.run store = (.error e, s') := by
  induction h with
  | done => cases herr
  | failed h =>
    cases herr
    exact ⟨[], _, _, _, rfl, rfl, .done _, h⟩
  | went h _ ih =>
    obtain ⟨before, path, behind, store, rfl, rfl, hbefore, hpath⟩ := ih herr
    exact ⟨_ :: before, path, behind, store, rfl, rfl, .went h hbefore, hpath⟩

/-- A store and what is to be deleted from it settle everything else. -/
theorem unique {tried' : List String} {ended' : Except IoError Unit} {s'' : σ}
    (h : Deletions delete paths s tried ended s')
    (h' : Deletions delete paths s tried' ended' s'') :
    tried = tried' ∧ ended = ended' ∧ s' = s'' := by
  induction h generalizing tried' with
  | done =>
    cases h'
    exact ⟨rfl, rfl, rfl⟩
  | failed hfails =>
    cases h' with
    | failed hfails' =>
      cases hfails.symm.trans hfails'
      exact ⟨rfl, rfl, rfl⟩
    | went hwent => cases hfails.symm.trans hwent
  | went hwent _ ih =>
    cases h' with
    | failed hfails => cases hwent.symm.trans hfails
    | went hwent' rest =>
      cases hwent.symm.trans hwent'
      obtain ⟨rfl, rfl, rfl⟩ := ih rest
      exact ⟨rfl, rfl, rfl⟩

end Deletions

end

end Baseline
