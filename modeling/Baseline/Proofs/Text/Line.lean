import Baseline.Proofs.Text.Utf8
import Baseline.Text.Line
import Mathlib.Data.List.TakeWhile

/-!
# The first line of a stream

A line that `Line.next` takes off a stream of bytes is what the stream starts with, up to its ending
(`startsWith_of_next`). The ending is LF or CR LF, and at the end of the stream there may be none.
For a line that does not itself end in CR the converse holds too (`next_eq_line_iff`).

Only the bytes up to the first LF decide what is taken (`next_first`): there is nothing only if
there are none (`next_eq_ended_iff`), and no line only if they are not text
(`next_eq_illFormed_iff`). All of this is read off one equation, for a stream that is cut in front
of its first LF (`Cut.next_eq`).
-/

namespace Baseline.Line

variable {bytes body rest : Bytes} {line : String}

/-! ## Cutting a stream in front of its first LF -/

/-- Two parts of a stream that is cut in front of its first LF, or not at all if it has none. -/
structure Cut (body rest : Bytes) : Prop where
  /-- the first part has no LF -/
  unbroken : 10 ∉ body
  /-- the second part starts with one, if it is anything -/
  starts : rest = [] ∨ ∃ more, rest = 10 :: more

/-- Every stream can be cut. -/
theorem exists_cut (bytes : Bytes) : ∃ body rest, bytes = body ++ rest ∧ Cut body rest := by
  by_cases h : 10 ∈ bytes
  · obtain ⟨body, more, rfl, hbody⟩ := List.eq_append_cons_of_mem h
    exact ⟨body, 10 :: more, rfl, hbody, .inr ⟨more, rfl⟩⟩
  · exact ⟨bytes, [], (List.append_nil _).symm, h, .inl rfl⟩

/-- The bytes up to the first LF and with it. -/
def first (bytes : Bytes) : Bytes :=
  bytes.takeWhile (· != 10) ++ (bytes.dropWhile (· != 10)).take 1

namespace Cut

theorem takeWhile_eq (h : Cut body rest) : (body ++ rest).takeWhile (· != 10) = body := by
  rw [List.takeWhile_append_of_pos fun b hb => bne_iff_ne.2 (ne_of_mem_of_not_mem hb h.unbroken)]
  rcases h.starts with rfl | ⟨more, rfl⟩ <;> exact List.append_nil body

theorem dropWhile_eq (h : Cut body rest) : (body ++ rest).dropWhile (· != 10) = rest := by
  rw [List.dropWhile_append_of_pos fun b hb => bne_iff_ne.2 (ne_of_mem_of_not_mem hb h.unbroken)]
  rcases h.starts with rfl | ⟨more, rfl⟩ <;> rfl

/-- What is taken is the text in front of the first LF, and what is left is behind it. -/
theorem next_eq (h : Cut body rest) (hne : body ++ rest ≠ []) :
    next (body ++ rest) =
      ((Utf8.decode? body).elim .illFormed fun s =>
        .line (if rest.isEmpty then s else String.ofList (dropReturn s.toList)), rest.drop 1) := by
  obtain ⟨b, bs, hbytes⟩ := List.exists_cons_of_ne_nil hne
  have htake := h.takeWhile_eq
  have hdrop := h.dropWhile_eq
  rw [hbytes] at htake hdrop ⊢
  rw [next, htake, hdrop]
  cases Utf8.decode? body <;> rfl

theorem first_eq (h : Cut body rest) : first (body ++ rest) = body ++ rest.take 1 := by
  rw [first, h.takeWhile_eq, h.dropWhile_eq]

/-- An LF is text, so it has no say in whether a line is. -/
theorem isText_first_iff (h : Cut body rest) :
    Utf8.IsText (first (body ++ rest)) ↔ Utf8.IsText body := by
  rw [h.first_eq]
  rcases h.starts with rfl | ⟨more, rfl⟩
  · rw [List.take_nil, List.append_nil]
  · exact Utf8.isText_append_singleton (c := '\n') (by decide)

end Cut

/-! ## What decides -/

/-- What is behind the first LF has no say. -/
theorem next_first (bytes : Bytes) : (next (first bytes)).1 = (next bytes).1 := by
  obtain ⟨body, rest, rfl, hcut⟩ := exists_cut bytes
  rw [hcut.first_eq]
  rcases hcut.starts with rfl | ⟨more, rfl⟩
  · rfl
  · have hne (more : Bytes) : body ++ 10 :: more ≠ [] :=
      List.append_ne_nil_of_right_ne_nil _ (List.cons_ne_nil 10 more)
    have hshort : Cut body [10] := ⟨hcut.unbroken, .inr ⟨[], rfl⟩⟩
    rw [hcut.next_eq (hne more), List.take_succ_cons, List.take_zero, hshort.next_eq (hne [])]
    rfl

/-- Nothing is taken exactly where there is nothing. -/
theorem next_eq_ended_iff : (next bytes).1 = .ended ↔ bytes = [] := by
  constructor
  · intro h
    by_contra hne
    obtain ⟨body, rest, rfl, hcut⟩ := exists_cut bytes
    rw [hcut.next_eq hne] at h
    cases hdecode : Utf8.decode? body <;> rw [hdecode] at h <;> cases h
  · rintro rfl
    rfl

/-- No line is taken exactly where the bytes up to the first LF are no text. What is behind them is
not looked at. -/
theorem next_eq_illFormed_iff : (next bytes).1 = .illFormed ↔ ¬ Utf8.IsText (first bytes) := by
  by_cases hne : bytes = []
  · rw [hne]
    exact ⟨nofun, fun h => absurd Utf8.isText_nil h⟩
  obtain ⟨body, rest, rfl, hcut⟩ := exists_cut bytes
  rw [hcut.next_eq hne, hcut.isText_first_iff, ← Utf8.decode?_eq_none_iff]
  cases Utf8.decode? body with
  | none => exact ⟨fun _ => rfl, fun _ => rfl⟩
  | some s => exact ⟨nofun, nofun⟩

/-! ## Text in a stream -/

theorem feed_mem_encode_iff : 10 ∈ Utf8.encode line ↔ '\n' ∈ line.toList := by
  rw [Utf8.encode, List.mem_flatMap]
  constructor
  · rintro ⟨c, hc, hmem⟩
    obtain rfl : c = '\n' := (Utf8.mem_encodeChar_iff (s := '\n') (by decide)).1 hmem
    exact hc
  · exact fun h => ⟨'\n', h, by decide⟩

/-- A line that nothing ends is the last. -/
theorem next_encode (hne : line ≠ "") (hplain : '\n' ∉ line.toList) :
    next (Utf8.encode line) = (.line line, []) := by
  have hbytes : Utf8.encode line ++ [] ≠ [] := fun h =>
    hne (Utf8.encode_injective ((List.append_nil _).symm.trans h))
  have hcut : Cut (Utf8.encode line) [] := ⟨mt feed_mem_encode_iff.1 hplain, .inl rfl⟩
  have hnext := hcut.next_eq hbytes
  rwa [Utf8.decode?_encode, List.append_nil] at hnext

/-- A line that an LF ends, without the CR in front of it. -/
theorem next_encode_feed (hplain : '\n' ∉ line.toList) (rest : Bytes) :
    next (Utf8.encode line ++ 10 :: rest) =
      (.line (String.ofList (dropReturn line.toList)), rest) := by
  have hcut : Cut (Utf8.encode line) (10 :: rest) :=
    ⟨mt feed_mem_encode_iff.1 hplain, .inr ⟨rest, rfl⟩⟩
  have hnext := hcut.next_eq (List.append_ne_nil_of_right_ne_nil _ (List.cons_ne_nil 10 rest))
  rwa [Utf8.decode?_encode] at hnext

/-! ## The line at the start -/

/-- The bytes are not at their end, and start with a line and its ending. -/
structure StartsWith (bytes : Bytes) (line : String) : Prop where
  /-- there is something to read -/
  nonempty : bytes ≠ []
  /-- the line ends at the first LF -/
  unbroken : 10 ∉ Utf8.encode line
  /-- only at the end of the bytes a line has no ending -/
  spelled : ∃ ending rest, bytes = Utf8.encode line ++ ending ++ rest ∧
    (ending = [10] ∨ ending = [13, 10] ∨ ending = [] ∧ rest = [])

/-- Behind the text of a line, one CR may belong to its ending. -/
theorem encode_dropReturn (s : String) :
    Utf8.encode s = Utf8.encode (String.ofList (dropReturn s.toList)) ∨
      Utf8.encode s = Utf8.encode (String.ofList (dropReturn s.toList)) ++ [13] := by
  rw [dropReturn]
  split
  · next hlast =>
    obtain ⟨front, hfront⟩ := List.getLast?_eq_some_iff.1 hlast
    have hs : s = String.ofList front ++ "\r" := by
      apply String.toList_inj.1
      rw [hfront, String.toList_append, String.toList_ofList]
      rfl
    rw [hfront, List.dropLast_concat]
    refine .inr ?_
    rw [hs, Utf8.encode_append]
    rfl
  · exact .inl (by rw [String.ofList_toList])

/-- A line that was taken is what the stream starts with. -/
theorem startsWith_of_next (h : (next bytes).1 = .line line) : StartsWith bytes line := by
  have hne : bytes ≠ [] := by
    rintro rfl
    cases h
  obtain ⟨body, rest, rfl, hcut⟩ := exists_cut bytes
  rw [hcut.next_eq hne] at h
  cases hdecode : Utf8.decode? body with
  | none =>
    rw [hdecode] at h
    cases h
  | some s =>
    rw [hdecode] at h
    obtain rfl := Taken.line.inj h
    obtain rfl := Utf8.encode_of_decode? hdecode
    have hbody := hcut.unbroken
    rcases hcut.starts with rfl | ⟨more, rfl⟩
    · exact ⟨hne, hbody, [], [], by simp, .inr (.inr ⟨rfl, rfl⟩)⟩
    · -- a CR in front of the LF is part of the ending
      rcases encode_dropReturn s with hs | hs
      · exact ⟨hne, hs ▸ hbody, [10], more, by simp [hs], .inl rfl⟩
      · rw [hs, List.mem_append, not_or] at hbody
        exact ⟨hne, hbody.1, [13, 10], more, by simp [hs], .inr (.inl rfl)⟩

theorem dropReturn_eq_self_iff {cs : List Char} : dropReturn cs = cs ↔ ¬ ['\r'] <:+ cs := by
  rw [dropReturn, List.singleton_suffix_iff_getLast?_eq_some]
  split
  · next hlast =>
    obtain ⟨front, rfl⟩ := List.getLast?_eq_some_iff.1 hlast
    rw [List.dropLast_concat]
    exact ⟨fun h => absurd h (by simp), fun h => absurd hlast h⟩
  · next hlast => exact ⟨fun _ => hlast, fun _ => rfl⟩

theorem dropReturn_concat (cs : List Char) : dropReturn (cs ++ ['\r']) = cs := by
  rw [dropReturn, if_pos List.getLast?_concat, List.dropLast_concat]

/-- The first line of a stream, if it does not itself end in CR. -/
theorem next_eq_line_iff (hreturn : ¬ ['\r'] <:+ line.toList) :
    (next bytes).1 = .line line ↔ StartsWith bytes line := by
  refine ⟨startsWith_of_next, ?_⟩
  rintro ⟨hne, hfeed, ending, rest, rfl, hending⟩
  have hplain : '\n' ∉ line.toList := mt feed_mem_encode_iff.2 hfeed
  rcases hending with rfl | rfl | ⟨rfl, rfl⟩
  · rw [List.append_assoc, List.singleton_append, next_encode_feed hplain,
      dropReturn_eq_self_iff.2 hreturn, String.ofList_toList]
  · -- the CR is read with the line, and then taken off it
    have hbytes : Utf8.encode line ++ [13, 10] ++ rest =
        Utf8.encode (line ++ "\r") ++ 10 :: rest := by
      rw [Utf8.encode_append, List.append_assoc, List.append_assoc]
      rfl
    have hreturned : (line ++ "\r").toList = line.toList ++ ['\r'] := String.toList_append
    rw [hbytes, next_encode_feed (by simpa [hreturned] using hplain), hreturned, dropReturn_concat,
      String.ofList_toList]
  · have hline : line ≠ "" := by
      rintro rfl
      exact hne rfl
    rw [List.append_nil, List.append_nil, next_encode hline hplain]

end Baseline.Line
