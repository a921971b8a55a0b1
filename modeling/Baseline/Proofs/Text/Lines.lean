import Baseline.Proofs.Text.Line

/-!
# How a text falls into lines

`Lined` says how, apart from any reader: a line goes up to its LF, and behind the last LF there is
one more line unless nothing is there. Every text falls into the lines that `Line.all` gives
(`lined_all`), and into no others (`Lined.all_eq`).
-/

namespace Baseline.Line

/-- How a text falls into lines. -/
inductive Lined : List Char → List (List Char) → Prop
  /-- where nothing is there is no line -/
  | nothing : Lined [] []
  /-- the last line may go without an ending, if it holds anything -/
  | last {piece : List Char} (hne : piece ≠ []) (hplain : '\n' ∉ piece) : Lined piece [piece]
  /-- an LF ends a line, and a CR in front of it belongs to the ending -/
  | ended {piece rest : List Char} {lines : List (List Char)} (hplain : '\n' ∉ piece)
      (more : Lined rest lines) : Lined (piece ++ '\n' :: rest) (dropReturn piece :: lines)

/-- Every text falls into lines. -/
theorem exists_lined (text : List Char) : ∃ lines, Lined text lines := by
  -- on the length: what is behind the first LF is shorter
  induction hn : text.length using Nat.strongRecOn generalizing text with
  | ind n ih =>
    subst hn
    by_cases hfeed : '\n' ∈ text
    · obtain ⟨piece, rest, rfl, hplain⟩ := List.eq_append_cons_of_mem hfeed
      obtain ⟨lines, hlines⟩ := ih rest.length (by simp; omega) rest rfl
      exact ⟨dropReturn piece :: lines, .ended hplain hlines⟩
    · by_cases hne : text = []
      · exact ⟨[], hne ▸ .nothing⟩
      · exact ⟨[text], .last hne hfeed⟩

namespace Lined

variable {text line : List Char} {lines : List (List Char)}

/-- What is behind the last LF is a line unless it is empty; what is in front of it is one. -/
theorem ofPieces_eq (h : Lined text lines) :
    ofPieces (splitWhere (· == '\n') text) = lines := by
  induction h with
  | nothing => rfl
  | @last piece hne hplain =>
    rw [splitWhere_eq_singleton fun c hc => beq_false_of_ne (ne_of_mem_of_not_mem hc hplain),
      ofPieces, if_neg (by simpa using hne)]
  | @ended piece rest lines hplain _ ih =>
    rw [splitWhere_append_cons rfl,
      splitWhere_eq_singleton fun c hc => beq_false_of_ne (ne_of_mem_of_not_mem hc hplain),
      List.singleton_append, ← ih]
    -- behind an LF there is always a piece, so the piece in front of it is ended
    cases hpieces : splitWhere (· == '\n') rest with
    | nil => exact absurd hpieces (splitWhere_ne_nil _ rest)
    | cons next more => rfl

/-- What falls into lines by the rule is read as these lines, so the rule leaves no choice. -/
theorem all_eq {text : String} (h : Lined text.toList lines) :
    all text = lines.map String.ofList := by
  rw [all, h.ofPieces_eq]

/-- No line holds an LF. -/
theorem feed_notMem (h : Lined text lines) (hline : line ∈ lines) : '\n' ∉ line := by
  induction h with
  | nothing => exact absurd hline List.not_mem_nil
  | last _ hplain => exact List.mem_singleton.1 hline ▸ hplain
  | @ended piece _ _ hplain _ ih =>
    rcases List.mem_cons.1 hline with rfl | hline
    · rw [dropReturn]
      split
      · exact fun hmem => hplain (List.dropLast_subset piece hmem)
      · exact hplain
    · exact ih hline

end Lined

/-- Lines are known by their characters. -/
theorem map_ofList_eq_iff {pieces : List (List Char)} {lines : List String} :
    pieces.map String.ofList = lines ↔ pieces = lines.map String.toList := by
  have hthere : String.toList ∘ String.ofList = id := funext fun _ => String.toList_ofList
  have hback : String.ofList ∘ String.toList = id := funext fun _ => String.ofList_toList
  constructor
  · rintro rfl
    rw [List.map_map, hthere, List.map_id]
  · rintro rfl
    rw [List.map_map, hback, List.map_id]

theorem lined_all (text : String) : Lined text.toList ((all text).map String.toList) := by
  obtain ⟨pieces, hpieces⟩ := exists_lined text.toList
  rwa [← map_ofList_eq_iff.1 hpieces.all_eq.symm]

end Baseline.Line
