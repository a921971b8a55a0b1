/-!
# Cutting a list at its separators

`splitWhere p` cuts a list at every element that `p` accepts. Paths are cut at slashes, logs at
line feeds and setting lists at commas, so the laws of this one function carry them all:

* `splitWhere_append_cons`: a separator cuts the list in two independent halves;
* `splitWhere_eq_singleton`: a list without separators is one piece.
-/

namespace Baseline

universe u

variable {α : Type u}

/-- The pieces between the separators, in order. A list with `n` separators has `n + 1` pieces,
some of them empty, so the empty list is one empty piece. -/
def splitWhere (p : α → Bool) : List α → List (List α)
  | [] => [[]]
  | a :: as => if p a then [] :: splitWhere p as else (splitWhere p as).modifyHead (a :: ·)

@[simp] theorem splitWhere_nil (p : α → Bool) : splitWhere p [] = [[]] := rfl

theorem splitWhere_cons_of_pos {p : α → Bool} {a : α} (h : p a = true) (as : List α) :
    splitWhere p (a :: as) = [] :: splitWhere p as := by
  simp [splitWhere, h]

theorem splitWhere_cons_of_neg {p : α → Bool} {a : α} (h : p a = false) (as : List α) :
    splitWhere p (a :: as) = (splitWhere p as).modifyHead (a :: ·) := by
  simp [splitWhere, h]

/-- There is always a piece. -/
theorem splitWhere_ne_nil (p : α → Bool) (as : List α) : splitWhere p as ≠ [] := by
  induction as with
  | nil => simp
  | cons a as ih =>
    cases h : p a with
    | true => simp [splitWhere_cons_of_pos h]
    | false =>
      rw [splitWhere_cons_of_neg h]
      cases hs : splitWhere p as with
      | nil => exact absurd hs ih
      | cons b bs => simp

/-- A separator cuts the list in two independent halves. -/
theorem splitWhere_append_cons {p : α → Bool} {s : α} (hs : p s = true) (as bs : List α) :
    splitWhere p (as ++ s :: bs) = splitWhere p as ++ splitWhere p bs := by
  induction as with
  | nil => simp [splitWhere_cons_of_pos hs]
  | cons a as ih =>
    cases h : p a with
    | true => simp [splitWhere_cons_of_pos h, ih]
    | false =>
      rw [List.cons_append, splitWhere_cons_of_neg h, splitWhere_cons_of_neg h, ih]
      cases ha : splitWhere p as with
      | nil => exact absurd ha (splitWhere_ne_nil p as)
      | cons b bs => simp

/-- What holds no separator goes to the first piece. -/
theorem splitWhere_append_of_neg {p : α → Bool} {as : List α} (h : ∀ a ∈ as, p a = false)
    (bs : List α) : splitWhere p (as ++ bs) = (splitWhere p bs).modifyHead (as ++ ·) := by
  induction as with
  | nil =>
    rw [List.nil_append]
    cases splitWhere p bs <;> rfl
  | cons a as ih =>
    rw [List.cons_append, splitWhere_cons_of_neg (h a (by simp)), ih fun b hb => h b (by simp [hb])]
    cases splitWhere p bs <;> rfl

/-- A list without separators is one piece. -/
theorem splitWhere_eq_singleton {p : α → Bool} {as : List α} (h : ∀ a ∈ as, p a = false) :
    splitWhere p as = [as] := by
  induction as with
  | nil => rfl
  | cons a as ih =>
    rw [splitWhere_cons_of_neg (h a (by simp)), ih fun b hb => h b (by simp [hb])]
    rfl

/-- Only what is in the list decides where it is cut. -/
theorem splitWhere_congr {p q : α → Bool} {as : List α} (h : ∀ a ∈ as, p a = q a) :
    splitWhere p as = splitWhere q as := by
  induction as with
  | nil => rfl
  | cons a as ih =>
    rw [splitWhere, splitWhere, h a (by simp), ih fun b hb => h b (by simp [hb])]

/-- Pieces without separators come back from behind the separators put between them. -/
theorem splitWhere_intercalate {p : α → Bool} {s : α} (hs : p s = true) {pieces : List (List α)}
    (hne : pieces ≠ []) (h : ∀ piece ∈ pieces, ∀ a ∈ piece, p a = false) :
    splitWhere p ([s].intercalate pieces) = pieces := by
  induction pieces with
  | nil => exact absurd rfl hne
  | cons piece more ih =>
    have hpiece := splitWhere_eq_singleton (h piece (by simp))
    cases more with
    | nil => rw [List.intercalate_singleton, hpiece]
    | cons next more =>
      rw [List.intercalate_cons_cons, List.append_assoc, List.singleton_append,
        splitWhere_append_cons hs, hpiece,
        ih (by simp) fun other hother => h other (by simp [hother])]
      rfl

/-- No piece holds a separator. -/
theorem not_of_mem_splitWhere {p : α → Bool} {as piece : List α} (h : piece ∈ splitWhere p as)
    {a : α} (ha : a ∈ piece) : p a = false := by
  induction as generalizing piece with
  | nil => simp_all
  | cons b as ih =>
    cases hb : p b with
    | true =>
      rw [splitWhere_cons_of_pos hb] at h
      rcases List.mem_cons.1 h with rfl | h
      · exact absurd ha List.not_mem_nil
      · exact ih h ha
    | false =>
      rw [splitWhere_cons_of_neg hb] at h
      cases hs : splitWhere p as with
      | nil => exact absurd hs (splitWhere_ne_nil p as)
      | cons first more =>
        rw [hs] at h ih
        rcases List.mem_cons.1 h with rfl | h
        · rcases List.mem_cons.1 ha with rfl | ha
          · exact hb
          · exact ih List.mem_cons_self ha
        · exact ih (List.mem_cons_of_mem _ h) ha

/-- What is no separator stands in a piece. -/
theorem exists_mem_splitWhere {p : α → Bool} {as : List α} {a : α} (ha : a ∈ as)
    (hp : p a = false) : ∃ piece ∈ splitWhere p as, a ∈ piece := by
  induction as with
  | nil => exact absurd ha List.not_mem_nil
  | cons b as ih =>
    cases hb : p b with
    | true =>
      have hne : a ≠ b := by
        rintro rfl
        exact Bool.noConfusion (hp.symm.trans hb)
      obtain ⟨piece, hpiece, hmem⟩ := ih ((List.mem_cons.1 ha).resolve_left hne)
      rw [splitWhere_cons_of_pos hb]
      exact ⟨piece, List.mem_cons_of_mem _ hpiece, hmem⟩
    | false =>
      rw [splitWhere_cons_of_neg hb]
      cases hs : splitWhere p as with
      | nil => exact absurd hs (splitWhere_ne_nil p as)
      | cons first more =>
        rw [hs] at ih
        rcases List.mem_cons.1 ha with rfl | ha
        · exact ⟨a :: first, List.mem_cons_self, List.mem_cons_self⟩
        · obtain ⟨piece, hpiece, hmem⟩ := ih ha
          rcases List.mem_cons.1 hpiece with rfl | hpiece
          · exact ⟨b :: piece, List.mem_cons_self, List.mem_cons_of_mem b hmem⟩
          · exact ⟨piece, List.mem_cons_of_mem _ hpiece, hmem⟩

/-- The pieces are those of the standard library. -/
theorem splitWhere_eq_splitOnP (p : α → Bool) (as : List α) : splitWhere p as = as.splitOnP p := by
  induction as with
  | nil => rfl
  | cons a as ih => rw [splitWhere, List.splitOnP_cons_eq_if_modifyHead, ih]

end Baseline
