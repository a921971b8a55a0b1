/-!
# Looking up where keys were taken away

The stores here are lists of pairs, and a key is taken away by keeping the pairs of all other keys.
Two laws say what a look-up finds afterwards: nothing under that key (`lookup_filter_self`), and
what was there before under every other (`lookup_filter_of_ne`). What is found at all is in the list
(`mem_of_lookup`), and something is found under each of its keys (`lookup_isSome_iff`).
-/

namespace Baseline

universe u v

variable {κ : Type u} {ν : Type v} [BEq κ] [LawfulBEq κ]

/-- What is found under a key is in the list with that key. -/
theorem mem_of_lookup {pairs : List (κ × ν)} {k : κ} {v : ν} (h : pairs.lookup k = some v) :
    (k, v) ∈ pairs := by
  obtain ⟨before, behind, rfl, -⟩ := List.lookup_eq_some_iff.1 h
  exact List.mem_append_right before List.mem_cons_self

/-- Something is found under the keys in the list and under no others. -/
theorem lookup_isSome_iff {pairs : List (κ × ν)} {k : κ} :
    (pairs.lookup k).isSome = true ↔ k ∈ pairs.map Prod.fst := by
  induction pairs with
  | nil => simp
  | cons pair pairs ih =>
    obtain ⟨j, v⟩ := pair
    rw [List.map_cons, List.mem_cons, List.lookup_cons, ← ih]
    cases h : k == j with
    | true => simp [eq_of_beq h]
    | false => simp [ne_of_beq_false h]

/-- Nothing is found under a key that was taken away. -/
theorem lookup_filter_self (pairs : List (κ × ν)) (k : κ) :
    (pairs.filter (·.1 != k)).lookup k = none := by
  rw [List.lookup_eq_none_iff]
  intro pair h
  have := (List.mem_filter.1 h).2
  rw [bne_iff_ne] at this
  exact bne_iff_ne.2 this.symm

/-- Under every other key the same is found as before. -/
theorem lookup_filter_of_ne {k l : κ} (h : l ≠ k) (pairs : List (κ × ν)) :
    (pairs.filter (·.1 != k)).lookup l = pairs.lookup l := by
  induction pairs with
  | nil => rfl
  | cons pair pairs ih =>
    obtain ⟨j, v⟩ := pair
    by_cases hj : j = k
    · subst hj
      have hl : (l == j) = false := beq_eq_false_iff_ne.2 h
      simp [List.lookup_cons, hl, ih]
    · have hkeep : (j != k) = true := bne_iff_ne.2 hj
      simp [List.lookup_cons, hkeep, ih]

end Baseline
