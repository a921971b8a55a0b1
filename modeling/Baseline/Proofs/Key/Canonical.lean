import Baseline.Proofs.Key.Normal
import Mathlib.Data.List.Infix

/-!
# Keys are canonical

What two paths with one key have in common, told without keys: whether a path starts at the top
(`StartsAtTop`), and the components between its separators that say something (`components`). These
two decide the key (`ofPath_eq_iff`), and along a join the components are put one behind the other
(`ofPath_join`).

A comparison text in turn is spelled in one way only (`Canonical`). Cut at its slashes it falls into
the parts of its key, so no piece behind the first is empty (`isPart_of_mem_tail`), and that is what
rules out a doubled slash and a slash at the end.
-/

namespace Baseline

variable {p q : String}

/-! ## What a key knows of a path -/

/-- A path that begins with either slash. -/
def StartsAtTop (path : String) : Prop := ['/'] <+: path.toList ∨ ['\\'] <+: path.toList

/-- What stands between the slashes of a path, of either kind, without what is empty or `.`. -/
def components (path : String) : List (List Char) :=
  (path.toList.splitOnP fun c => c == '/' || c == '\\').filter fun part =>
    part ≠ [] ∧ part ≠ ['.']

namespace Key

/-- A key is rooted exactly if its path starts at the top, with either kind of slash. -/
theorem rooted_ofPath_iff (path : String) : (ofPath path).rooted = true ↔ StartsAtTop path := by
  rw [ofPath, StartsAtTop]
  cases path.toList with
  | nil => simp
  | cons c cs =>
    simp only [List.head?_cons, Option.any_some, isSeparator, Bool.or_eq_true, beq_iff_eq,
      List.cons_prefix_cons, List.nil_prefix, and_true]
    exact or_congr eq_comm eq_comm

/-- The parts of a key are the components of its path, in order. -/
theorem parts_ofPath (path : String) :
    (ofPath path).parts = (components path).map String.ofList := by
  have hcounts : (counts ∘ String.ofList) =
      fun part : List Char => decide (part ≠ [] ∧ part ≠ ['.']) := by
    funext part
    have hempty : String.ofList part = "" ↔ part = [] := String.ofList_inj
    have hdot : String.ofList part = "." ↔ part = ['.'] := String.ofList_inj
    rw [Bool.eq_iff_iff, decide_eq_true_iff, ne_eq, ne_eq, ← hempty, ← hdot]
    simp [counts]
  rw [ofPath, splitWhere_eq_splitOnP, List.filter_map, hcounts]
  rfl

/-- Two paths have one key exactly if they agree on the top and on the components. -/
theorem ofPath_eq_iff :
    ofPath p = ofPath q ↔ (StartsAtTop p ↔ StartsAtTop q) ∧ components p = components q := by
  rw [← rooted_ofPath_iff, ← rooted_ofPath_iff, ← Bool.eq_iff_iff]
  have hparts : (ofPath p).parts = (ofPath q).parts ↔ components p = components q := by
    rw [parts_ofPath, parts_ofPath]
    exact List.map_inj_right fun _ _ => String.ofList_inj.1
  rw [← hparts]
  rcases ofPath p with ⟨rooted, parts⟩
  rcases ofPath q with ⟨rooted', parts'⟩
  exact Key.mk.injEq _ _ _ _ ▸ Iff.rfl

/-- A join starts where its first path starts, and goes on with the parts of the second. -/
theorem ofPath_join (hp : p ≠ "") (q : String) :
    ofPath (p ++ "/" ++ q) = ⟨(ofPath p).rooted, (ofPath p).parts ++ (ofPath q).parts⟩ := by
  have htext : (p ++ "/" ++ q).toList = p.toList ++ '/' :: q.toList := by
    rw [String.toList_append, String.toList_append, List.append_assoc]
    rfl
  have hhead : (p.toList ++ '/' :: q.toList).head? = p.toList.head? :=
    List.head?_append_of_ne_nil _ (mt String.toList_eq_nil_iff.1 hp)
  simp only [ofPath, htext, hhead, splitWhere_append_cons (p := isSeparator) (s := '/') rfl,
    List.map_append, List.filter_append]

end Key

/-! ## How a comparison text is spelled -/

/-- A path in the one spelling that stands for all others. -/
structure Canonical (text : String) : Prop where
  /-- it is not empty -/
  ne_empty : text ≠ ""
  /-- it holds no backslash -/
  noBackslash : '\\' ∉ text.toList
  /-- no slash is doubled -/
  noDoubled : ¬ ['/', '/'] <:+: text.toList
  /-- none stands at the end, unless it is all there is -/
  noTrailing : ['/'] <:+ text.toList → text = "/"
  /-- no component is `.`, unless it is all there is -/
  noDot : ['.'] ∈ text.toList.splitOnP (· == '/') → text = "."

namespace Key

variable {k : Key}

/-- Cut at its slashes, the text of a key falls into its parts; a rooted one has an empty piece in
front. -/
theorem splitWhere_text (h : k.Proper) (hne : k.parts ≠ []) :
    splitWhere (· == '/') k.text.toList =
      (if k.rooted then [[]] else []) ++ k.parts.map String.toList := by
  have hjoined : splitWhere (· == '/') (joined k.parts).toList = k.parts.map String.toList :=
    splitWhere_joined rfl hne fun part hpart c hc => beq_false_of_ne fun hslash =>
      (h part hpart).slash_notMem (hslash ▸ hc)
  obtain ⟨rooted, parts⟩ := k
  cases rooted with
  | true =>
    have htext : (text ⟨true, parts⟩).toList = '/' :: (joined parts).toList := by
      rw [text, String.toList_append]
      rfl
    rw [htext, splitWhere_cons_of_pos rfl, hjoined]
    rfl
  | false =>
    have htext : text ⟨false, parts⟩ = joined parts := by
      cases parts with
      | nil => exact absurd rfl hne
      | cons part more => rfl
    rw [htext, hjoined]
    rfl

/-- Every piece behind the first is a part. -/
theorem isPart_of_mem_tail (h : k.Proper) (hne : k.parts ≠ []) {piece : List Char}
    (hpiece : piece ∈ (splitWhere (· == '/') k.text.toList).tail) :
    IsPart (String.ofList piece) := by
  have hmem : piece ∈ k.parts.map String.toList := by
    rw [splitWhere_text h hne] at hpiece
    split at hpiece
    · exact hpiece
    · exact List.mem_of_mem_tail hpiece
  obtain ⟨part, hpart, rfl⟩ := List.mem_map.1 hmem
  rw [String.ofList_toList]
  exact h part hpart

/-- So none of them is empty. -/
theorem nil_notMem_tail (h : k.Proper) (hne : k.parts ≠ []) :
    [] ∉ (splitWhere (· == '/') k.text.toList).tail :=
  fun hnil => (isPart_of_mem_tail h hne hnil).ne_empty rfl

/-- The text of a key with parts neither has a slash behind a slash nor ends in one: there would be
an empty piece. -/
theorem text_ne_of_parts (h : k.Proper) (hne : k.parts ≠ []) {before behind : List Char}
    (hbehind : behind = [] ∨ behind.head? = some '/') :
    k.text.toList ≠ before ++ '/' :: behind := by
  intro htext
  refine nil_notMem_tail h hne ?_
  rw [htext, splitWhere_append_cons rfl, List.tail_append_of_ne_nil (splitWhere_ne_nil _ _)]
  refine List.mem_append_right _ ?_
  rcases hbehind with rfl | hslash
  · exact List.mem_cons_self
  · obtain ⟨rest, rfl⟩ := List.head?_eq_some_iff.1 hslash
    rw [splitWhere_cons_of_pos rfl]
    exact List.mem_cons_self

/-- The text of a key that a path has is canonical. -/
theorem canonical_text (h : k.Proper) : Canonical k.text := by
  by_cases hne : k.parts = []
  · -- only `/` and `.` are spelled without a part
    obtain ⟨rooted, parts⟩ := k
    obtain rfl : parts = [] := hne
    cases rooted with
    | true => exact ⟨by decide, by decide, by decide, fun _ => rfl, by decide⟩
    | false => exact ⟨by decide, by decide, by decide, by decide, fun _ => rfl⟩
  have hpieces {piece : List Char} (hpiece : piece ∈ splitWhere (· == '/') k.text.toList) :
      piece = [] ∨ ∃ part ∈ k.parts, part.toList = piece := by
    rw [splitWhere_text h hne] at hpiece
    rcases List.mem_append.1 hpiece with hfront | hmem
    · split at hfront
      · exact .inl (List.mem_singleton.1 hfront)
      · exact absurd hfront List.not_mem_nil
    · exact .inr (List.mem_map.1 hmem)
  exact
    { ne_empty := fun hempty => hne (by rw [← ofPath_text h, hempty]; rfl)
      noBackslash := fun hmem => by
        obtain ⟨piece, hpiece, hc⟩ := exists_mem_splitWhere (p := (· == '/')) hmem rfl
        rcases hpieces hpiece with rfl | ⟨part, hpart, rfl⟩
        · exact List.not_mem_nil hc
        · exact Bool.noConfusion ((h part hpart).plain _ hc)
      noDoubled := fun ⟨before, behind, htext⟩ => by
        have hpair : k.text.toList = before ++ '/' :: '/' :: behind := by
          rw [← htext, List.append_assoc]
          rfl
        exact text_ne_of_parts h hne (.inr rfl) hpair
      noTrailing := fun ⟨before, htext⟩ =>
        absurd htext.symm (text_ne_of_parts h hne (.inl rfl))
      noDot := fun hmem => by
        rw [← splitWhere_eq_splitOnP] at hmem
        rcases hpieces hmem with hnil | ⟨part, hpart, hdot⟩
        · cases hnil
        · exact absurd (String.toList_inj.1 hdot) (h part hpart).ne_dot }

end Key

/-- **Comparison texts are canonical.** Two paths have the same comparison text exactly if both or
neither start at the top and their components are the same. A comparison text is its own comparison
text and is spelled in the one way there is, and that of a join depends only on those of the two
paths. -/
theorem keyText_canonical (p q : String) :
    (keyText p = keyText q ↔ (StartsAtTop p ↔ StartsAtTop q) ∧ components p = components q) ∧
      keyText (keyText p) = keyText p ∧
      Canonical (keyText p) ∧
      (p ≠ "" → keyText (p ++ "/" ++ q) = keyText (keyText p ++ "/" ++ keyText q)) := by
  have hcanonical : Canonical (keyText p) := Key.canonical_text (Key.proper_ofPath p)
  refine ⟨keyText_inj.trans Key.ofPath_eq_iff, keyText_keyText p, hcanonical, fun hp => ?_⟩
  rw [keyText_inj, Key.ofPath_join hp, Key.ofPath_join hcanonical.ne_empty, ofPath_keyText,
    ofPath_keyText]

/-- The corners: nothing, the top, and parts that say nothing. -/
example : keyText "" = "." ∧ keyText "\\" = "/" ∧ keyText ".//./" = "." ∧
    keyText "a\\./b//" = "a/b" := by decide +kernel

end Baseline
