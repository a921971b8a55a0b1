import Baseline.Proofs.Desk.Input
import Baseline.Proofs.Sweep.Course
import Baseline.Proofs.Text.Line

/-!
# The reply to the question

Which inputs agree to a deletion, byte for byte. A prompting sweep reads one line and agrees to
three answers, so the inputs that agree are those that start with one of the three and an ending,
and the answers that are not empty may also be all that there is (`Agreement`). Every other input
refuses, or fails if there is no line or the line is not text (`mayDelete_replies`).

The reply is a function of what was taken off the input (`reply_eq`), and that is known for every
input from the theory of the first line.
-/

namespace Baseline.Sweep

variable {σ : Type} {move : String → String → ExceptT IoError (StateM σ) Unit}
  {delete : String → ExceptT IoError (StateM σ) Unit} {t : Traced (Desk σ Input)} {bytes : Bytes}
  {line : String}

/-- An input that agrees: an answer that does, with an ending behind it, or an answer that is not
empty and is all that there is. -/
def Agreement (bytes : Bytes) : Prop :=
  ∃ answer ∈ agreeing, (∃ ending ∈ ["\n", "\r\n"], Utf8.encode (answer ++ ending) <+: bytes) ∨
    answer ≠ "" ∧ bytes = Utf8.encode answer

/-- A line with an answer that would agree, but for the blanks around it. -/
def Padded (line : String) : Prop :=
  ∃ answer ∈ agreeing, ∃ before behind : List Char,
    line.toList = before ++ answer.toList ++ behind ∧ before ++ behind ≠ [] ∧
      ∀ c ∈ before ++ behind, c = ' ' ∨ c = '\t'

/-- How an input is replied to. -/
structure RepliesTo (bytes : Bytes) (reply : Except Error Bool) : Prop where
  /-- it agrees, exactly if it starts with an answer that does -/
  yes : reply = .ok true ↔ Agreement bytes
  /-- it has ended, exactly if nothing is there -/
  closed : reply = .error (.io .inputClosed) ↔ bytes = []
  /-- it is refused as no text, exactly if the bytes up to the first LF, with it, are none -/
  notText : reply = .error (.io .notText) ↔ ¬ Utf8.IsText (Line.first bytes)
  /-- it fails in no other way -/
  fails : (∃ e, reply = .error e) ↔ bytes = [] ∨ ¬ Utf8.IsText (Line.first bytes)
  /-- in every other case it does not agree -/
  no : reply = .ok false ↔ bytes ≠ [] ∧ Utf8.IsText (Line.first bytes) ∧ ¬ Agreement bytes
  /-- a CR alone is an answer, and not the empty one -/
  loneReturn : bytes = Utf8.encode "\r" → reply = .ok false
  /-- so is a CR behind an answer, without an LF -/
  openReturn : bytes = Utf8.encode "y\r" → reply = .ok false
  /-- blanks around an answer are part of it -/
  padded : ∀ {line}, Padded line → Line.StartsWith bytes line → reply = .ok false

/-! ## The inputs that agree -/

/-- An answer that agrees holds nothing that could stand around it. -/
theorem notMem_of_mem_agreeing (h : line ∈ agreeing) {c : Char}
    (hc : c ∈ [' ', '\t', '\r', '\n']) : c ∉ line.toList := by
  simp only [agreeing, List.mem_cons, List.not_mem_nil, or_false] at h hc
  rcases h with rfl | rfl | rfl <;> rcases hc with rfl | rfl | rfl | rfl <;> decide

theorem return_not_suffix (h : line ∈ agreeing) : ¬ ['\r'] <:+ line.toList := fun hsuffix =>
  notMem_of_mem_agreeing h (by decide) (hsuffix.subset List.mem_cons_self)

theorem feed_notMem_encode (h : line ∈ agreeing) : 10 ∉ Utf8.encode line :=
  mt Line.feed_mem_encode_iff.1 (notMem_of_mem_agreeing h (by decide))

/-- The first line agrees exactly if it is one of the few answers, spelled in bytes as the three
forms say. -/
theorem agreement_iff : Agreement bytes ↔ ∃ answer ∈ agreeing, Line.StartsWith bytes answer := by
  refine exists_congr fun answer => and_congr_right fun hanswer => ?_
  have hfeed := feed_notMem_encode hanswer
  have hne (b : UInt8) (more rest : Bytes) : Utf8.encode answer ++ b :: more ++ rest ≠ [] :=
    List.append_ne_nil_of_left_ne_nil
      (List.append_ne_nil_of_right_ne_nil _ (List.cons_ne_nil b more)) rest
  constructor
  · rintro (⟨ending, hending, rest, rfl⟩ | ⟨hfull, rfl⟩)
    · rw [Utf8.encode_append]
      simp only [List.mem_cons, List.not_mem_nil, or_false] at hending
      rcases hending with rfl | rfl
      · exact ⟨hne 10 [] rest, hfeed, [10], rest, rfl, .inl rfl⟩
      · exact ⟨hne 13 [10] rest, hfeed, [13, 10], rest, rfl, .inr (.inl rfl)⟩
    · exact ⟨fun h => hfull (Utf8.encode_injective h), hfeed, [], [], by simp,
        .inr (.inr ⟨rfl, rfl⟩)⟩
  · rintro ⟨hnonempty, -, ending, rest, rfl, rfl | rfl | ⟨rfl, rfl⟩⟩
    · exact .inl ⟨"\n", by simp, rest, by rw [Utf8.encode_append]; rfl⟩
    · exact .inl ⟨"\r\n", by simp, rest, by rw [Utf8.encode_append]; rfl⟩
    · rw [List.append_nil, List.append_nil] at hnonempty ⊢
      refine .inr ⟨?_, rfl⟩
      rintro rfl
      exact hnonempty rfl

theorem Padded.notMem_agreeing (h : Padded line) : line ∉ agreeing := by
  obtain ⟨answer, -, before, behind, hline, hne, hblank⟩ := h
  obtain ⟨c, hc⟩ := List.exists_mem_of_ne_nil _ hne
  have hmem : c ∈ line.toList := by
    rw [hline, List.mem_append, List.mem_append]
    exact (List.mem_append.1 hc).elim (fun hc => .inl (.inl hc)) .inr
  intro hagrees
  refine notMem_of_mem_agreeing hagrees ?_ hmem
  rcases hblank c hc with rfl | rfl <;> decide

theorem Padded.return_not_suffix (h : Padded line) : ¬ ['\r'] <:+ line.toList := by
  obtain ⟨answer, hanswer, before, behind, hline, -, hblank⟩ := h
  have hblanks : '\r' ∉ before ++ behind := fun hmem => by
    rcases hblank _ hmem with h | h <;> exact absurd h (by decide)
  rw [List.mem_append, not_or] at hblanks
  intro hsuffix
  have hmem : '\r' ∈ before ++ answer.toList ++ behind :=
    hline ▸ hsuffix.subset List.mem_cons_self
  rcases List.mem_append.1 hmem with hmem | hmem
  · rcases List.mem_append.1 hmem with hmem | hmem
    · exact hblanks.1 hmem
    · exact notMem_of_mem_agreeing hanswer (by decide) hmem
  · exact hblanks.2 hmem

/-! ## The reply -/

/-- The reply to what was taken off an input. -/
def replyTo (taken : Line.Taken) : Except Error Bool :=
  ((Input.answer taken).map agrees).mapError .io

section

variable {taken : Line.Taken}

theorem replyTo_eq_yes_iff :
    replyTo taken = .ok true ↔ ∃ answer ∈ agreeing, taken = .line answer := by
  cases taken with
  | ended | illFormed => exact ⟨nofun, nofun⟩
  | line text =>
    have hreply : replyTo (.line text) = .ok (agrees text) := rfl
    rw [hreply, Except.ok.injEq, agrees_iff]
    simp

theorem replyTo_eq_no_iff :
    replyTo taken = .ok false ↔ ∃ answer, answer ∉ agreeing ∧ taken = .line answer := by
  cases taken with
  | ended | illFormed => exact ⟨nofun, nofun⟩
  | line text =>
    have hreply : replyTo (.line text) = .ok (agrees text) := rfl
    rw [hreply, Except.ok.injEq, ← Bool.not_eq_true, agrees_iff]
    simp

theorem replyTo_eq_closed_iff : replyTo taken = .error (.io .inputClosed) ↔ taken = .ended := by
  cases taken with
  | ended => exact ⟨fun _ => rfl, fun _ => rfl⟩
  | illFormed => exact ⟨fun h => absurd h (by decide), nofun⟩
  | line text => exact ⟨nofun, nofun⟩

theorem replyTo_eq_notText_iff : replyTo taken = .error (.io .notText) ↔ taken = .illFormed := by
  cases taken with
  | ended => exact ⟨fun h => absurd h (by decide), nofun⟩
  | illFormed => exact ⟨fun _ => rfl, fun _ => rfl⟩
  | line text => exact ⟨nofun, nofun⟩

/-- There is no reply only at the end of the input, or where the line is no text. -/
theorem replyTo_fails_iff :
    (∃ e, replyTo taken = .error e) ↔ taken = .ended ∨ taken = .illFormed := by
  cases taken with
  | ended => exact ⟨fun _ => .inl rfl, fun _ => ⟨_, rfl⟩⟩
  | illFormed => exact ⟨fun _ => .inr rfl, fun _ => ⟨_, rfl⟩⟩
  | line text => exact ⟨nofun, nofun⟩

end

/-- The reply to the first line of an input. -/
theorem repliesTo_next (bytes : Bytes) : RepliesTo bytes (replyTo (Line.next bytes).1) := by
  have hyes : (∃ answer ∈ agreeing, (Line.next bytes).1 = .line answer) ↔ Agreement bytes := by
    rw [agreement_iff]
    exact exists_congr fun answer => and_congr_right fun hanswer =>
      Line.next_eq_line_iff (return_not_suffix hanswer)
  have hno (line : String) (hrefused : line ∉ agreeing)
      (hline : (Line.next bytes).1 = .line line) : replyTo (Line.next bytes).1 = .ok false :=
    replyTo_eq_no_iff.2 ⟨line, hrefused, hline⟩
  exact
    { yes := replyTo_eq_yes_iff.trans hyes
      closed := replyTo_eq_closed_iff.trans Line.next_eq_ended_iff
      notText := replyTo_eq_notText_iff.trans Line.next_eq_illFormed_iff
      fails := replyTo_fails_iff.trans
        (or_congr Line.next_eq_ended_iff Line.next_eq_illFormed_iff)
      no := by
        rw [replyTo_eq_no_iff, ← hyes, ← not_not (a := Utf8.IsText _),
          ← Line.next_eq_illFormed_iff, ne_eq, ← Line.next_eq_ended_iff]
        cases (Line.next bytes).1 <;> simp
      loneReturn := fun h => hno "\r" (by decide) (by rw [h]; decide)
      openReturn := fun h => hno "y\r" (by decide) (by rw [h]; decide)
      padded := fun hpadded hstarts => hno _ hpadded.notMem_agreeing
        ((Line.next_eq_line_iff hpadded.return_not_suffix).2 hstarts) }

variable (move delete) in
/-- What the question comes to on a desk with an input. -/
def reply (t : Traced (Desk σ Input)) : Except Error Bool :=
  ((mayDelete (deskOutside move delete Input.next) .prompt).run.run t).1

theorem reply_eq (hroom : Fits t.state.room 1) :
    reply move delete t = replyTo (Line.next t.state.answers.left).1 := by
  rw [reply, run_mayDelete_prompt hroom, Input.run_next, replyTo]

/-- **The language of consent.** A question that can be written is replied to by the bytes of the
input up to the first LF, and by nothing else. -/
theorem mayDelete_replies (hroom : Fits t.state.room 1) :
    RepliesTo t.state.answers.left (reply move delete t) ∧
      ∀ {other : Traced (Desk σ Input)}, Fits other.state.room 1 →
        Line.first other.state.answers.left = Line.first t.state.answers.left →
        reply move delete other = reply move delete t := by
  refine ⟨?_, fun {other} hother hfirst => ?_⟩
  · rw [reply_eq hroom]
    exact repliesTo_next t.state.answers.left
  · rw [reply_eq hroom, reply_eq hother, ← Line.next_first, hfirst, Line.next_first]

/-- A desk with room for the question and an input that goes on behind its first line. -/
def waiting (rest : Bytes) : Traced (Desk Unit Input) :=
  .start ⟨(), ⟨Utf8.encode "y\r\n" ++ rest⟩, some 1⟩

/-- An input agrees whatever it goes on with, be it no text. -/
theorem mayDelete_replies_waiting :
    Fits (waiting [0xFF]).state.room 1 ∧ Agreement (Utf8.encode "y\r\n" ++ [0xFF]) ∧
      reply (fun _ _ => pure ()) (fun _ => pure ()) (waiting [0xFF]) = .ok true ∧
      reply (fun _ _ => pure ()) (fun _ => pure ()) (waiting []) = .ok true := by
  have hroom (rest : Bytes) : Fits (waiting rest).state.room 1 := Nat.le_refl 1
  have hagrees : Agreement (Utf8.encode "y\r\n" ++ [0xFF]) :=
    ⟨"y", by decide, .inl ⟨"\r\n", by decide, List.prefix_append _ _⟩⟩
  obtain ⟨hreplies, hsame⟩ := @mayDelete_replies Unit (fun _ _ => pure ()) (fun _ => pure ())
    (waiting [0xFF]) (hroom [0xFF])
  have hyes := hreplies.yes.2 hagrees
  exact ⟨hroom [0xFF], hagrees, hyes, (hsame (hroom []) (by decide)).trans hyes⟩

end Baseline.Sweep
