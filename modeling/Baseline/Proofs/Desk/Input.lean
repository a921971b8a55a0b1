import Baseline.Desk
import Baseline.Proofs.Steps

/-!
# A standard input, line by line

Reading once is taking one line off the bytes that are left (`run_next`). Reading again and again
goes on with what is left each time, and at the end of the bytes there is nothing more to come of it
(`reads_closed`).
-/

namespace Baseline.Input

/-- What a reader gets for what was taken. -/
def answer : Line.Taken → Except IoError String
  | .ended => .error .inputClosed
  | .illFormed => .error .notText
  | .line text => .ok text

/-- Reading an answer is taking a line off what is left of the input; where there is none, or it is
no text, the answer is an error, and what was looked at is used up all the same. -/
theorem run_next (input : Input) :
    Input.next.run.run input =
      (answer (Line.next input.left).1, ⟨(Line.next input.left).2⟩) := by
  have hget : (get : ExceptT IoError (StateM Input) Input).run.run input = (.ok input, input) := rfl
  rw [Input.next, run_bind_ok hget]
  rcases Line.next input.left with ⟨ended | illFormed | text, left⟩ <;> rfl

/-- What comes of so many readings. -/
def reads : Nat → StateM Input (List (Except IoError String))
  | 0 => return []
  | n + 1 => do
    let first ← Input.next.run
    let later ← reads n
    return first :: later

/-- So of many readings the first is told by the first line, and the others by what is left behind
it. -/
theorem run_reads_succ (n : Nat) (input : Input) :
    ((reads (n + 1)).run input).1 =
      answer (Line.next input.left).1 :: ((reads n).run ⟨(Line.next input.left).2⟩).1 := by
  rw [reads, run_bind_of_eq (run_next input)]
  rfl

/-- At the end every reading finds the input closed. -/
theorem reads_closed (n : Nat) :
    ((reads n).run ⟨[]⟩).1 = List.replicate n (.error .inputClosed) := by
  induction n with
  | zero => rfl
  | succ n ih =>
    rw [run_reads_succ, List.replicate_succ]
    exact congrArg _ ih

end Baseline.Input
