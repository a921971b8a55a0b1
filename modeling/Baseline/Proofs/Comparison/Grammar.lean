import Baseline.Proofs.Comparison.Batch
import Mathlib.Data.List.Infix

/-!
# The grammar of a record

A line is cut at its first arrow (`cutAtArrow_eq_some_iff`), and it is a record if no arrow is left
behind the cut (`Cut`). An arrow begins and ends with a blank, so two arrows may share one: which
arrow is the first is then a matter of where it starts, and how many there are depends on how they
are counted. Counted from the left, each next one behind the last (`arrows`), a record has one.

Two paths that are joined by an arrow are cut apart again there if neither of them holds an arrow
and the first does not end in one but for its last blank (`clear_iff`).
-/

namespace Baseline

namespace Comparison

variable {cs before behind : List Char} {line : String} {c : Comparison}

/-! ## The first arrow -/

/-- No arrow starts in front of a place. -/
def ClearBefore (place : Nat) (cs : List Char) : Prop := ∀ i < place, ¬ arrow <+: cs.drop i

theorem clearBefore_succ {place : Nat} {first : Char} :
    ClearBefore (place + 1) (first :: cs) ↔ ¬ arrow <+: first :: cs ∧ ClearBefore place cs := by
  refine ⟨fun h => ⟨h 0 (Nat.succ_pos _), fun i hi => h (i + 1) (Nat.succ_lt_succ hi)⟩, ?_⟩
  rintro ⟨hfirst, hrest⟩ (_ | i) hi
  · exact hfirst
  · exact hrest i (Nat.lt_of_succ_lt_succ hi)

/-- A cut is at the first arrow, and only there. -/
theorem cutAtArrow_eq_some_iff :
    cutAtArrow cs = some (before, behind) ↔
      cs = before ++ arrow ++ behind ∧ ClearBefore before.length cs := by
  induction cs generalizing before with
  | nil =>
    refine ⟨nofun, fun ⟨h, _⟩ => ?_⟩
    simp [arrow] at h
  | cons first cs ih =>
    rw [cutAtArrow]
    split
    · next harrow =>
      obtain ⟨rest, hrest⟩ := harrow
      rw [← hrest, List.drop_left]
      constructor
      · intro h
        obtain ⟨rfl, rfl⟩ := Prod.mk.inj (Option.some.inj h)
        exact ⟨rfl, nofun⟩
      · rintro ⟨hcs, hclear⟩
        cases before with
        | nil => rw [List.nil_append, List.append_cancel_left_eq] at hcs; rw [hcs]
        | cons _ more => exact absurd (List.prefix_append _ _) (hclear 0 (Nat.succ_pos _))
    · next harrow =>
      constructor
      · intro h
        obtain ⟨⟨more, rest⟩, hcut, hpair⟩ := Option.map_eq_some_iff.1 h
        obtain ⟨rfl, rfl⟩ := Prod.mk.inj hpair
        obtain ⟨hcs, hclear⟩ := ih.1 hcut
        exact ⟨by rw [hcs]; rfl, clearBefore_succ.2 ⟨harrow, hclear⟩⟩
      · rintro ⟨hcs, hclear⟩
        cases before with
        | nil => exact absurd ⟨behind, hcs.symm⟩ harrow
        | cons _ more =>
          obtain ⟨rfl, htail⟩ := List.cons.inj hcs
          rw [ih.2 ⟨htail, (clearBefore_succ.1 hclear).2⟩]
          rfl

/-- There is no cut exactly if there is no arrow. -/
theorem cutAtArrow_eq_none_iff : cutAtArrow cs = none ↔ ¬ arrow <:+: cs := by
  induction cs with
  | nil => simp [cutAtArrow, arrow]
  | cons first cs ih =>
    rw [cutAtArrow, List.infix_cons_iff, not_or, ← ih]
    split
    · next harrow => simp [harrow]
    · next harrow => simp [harrow]

/-! ## Records -/

/-- A line is the record of two paths: they are joined by an arrow, none starts further to the left,
and none stands in the second. -/
structure Cut (line : String) (c : Comparison) : Prop where
  /-- the line is the two paths with an arrow between them -/
  joined : line = c.line
  /-- no arrow starts before the end of the first path -/
  first : ClearBefore c.received.length line.toList
  /-- no arrow stands in the second path -/
  last : ¬ arrow <:+: c.approved.toList

theorem toList_line (c : Comparison) :
    c.line.toList = c.received.toList ++ arrow ++ c.approved.toList := by
  rw [Comparison.line, String.toList_append, String.toList_append, String.toList_ofList]

/-- A line is cut into a record where the reader cuts it. -/
theorem cut_iff :
    Cut line c ↔ cutAtArrow line.toList = some (c.received.toList, c.approved.toList) ∧
      cutAtArrow c.approved.toList = none := by
  rw [cutAtArrow_eq_some_iff, cutAtArrow_eq_none_iff, ← toList_line, String.toList_inj,
    String.length_toList]
  exact ⟨fun h => ⟨⟨h.joined, h.first⟩, h.last⟩, fun h => ⟨h.1.1, h.1.2, h.2⟩⟩

/-- Reading is cutting: a line reads as a record exactly if it can be cut into it at an arrow that
is the first and the last. The number of the line has no say. -/
theorem parse_eq_ok_iff {n : Nat} : parse n line = .ok c ↔ Cut line c := by
  rw [cut_iff, parse]
  cases hcut : cutAtArrow line.toList with
  | none =>
    constructor
    · intro h
      cases h
    · rintro ⟨hhalves, -⟩
      cases hhalves
  | some halves =>
    obtain ⟨before, behind⟩ := halves
    dsimp only
    cases hrest : cutAtArrow behind with
    | some more =>
      constructor
      · intro h
        cases h
      · rintro ⟨hhalves, hlast⟩
        obtain ⟨rfl, rfl⟩ := Prod.mk.inj (Option.some.inj hhalves)
        rw [hrest] at hlast
        cases hlast
    | none =>
      constructor
      · intro h
        obtain rfl := Except.ok.inj h
        rw [String.toList_ofList, String.toList_ofList]
        exact ⟨rfl, hrest⟩
      · rintro ⟨hhalves, -⟩
        obtain ⟨rfl, rfl⟩ := Prod.mk.inj (Option.some.inj hhalves)
        rw [String.ofList_toList, String.ofList_toList]

/-- A line has one record at most. The first arrow settles the received path, and what is behind it
settles the approved one. -/
theorem Cut.unique {other : Comparison} (h : Cut line c) (hother : Cut line other) : other = c :=
  Except.ok.inj ((parse_eq_ok_iff (n := 0)).2 hother |>.symm.trans (parse_eq_ok_iff.2 h))

theorem isRecord_iff : IsRecord line ↔ ∃ c, Cut line c :=
  exists_congr fun _ => ⟨fun h => parse_eq_ok_iff.1 (h 0), fun h _ => parse_eq_ok_iff.2 h⟩

/-! ## Counting arrows -/

/-- How many arrows are met on the way from the left, when the first `skip` characters belong to one
that was met before. -/
def arrowsFrom : Nat → List Char → Nat
  | _, [] => 0
  | skip + 1, _ :: cs => arrowsFrom skip cs
  | 0, c :: cs =>
    if arrow <+: c :: cs then arrowsFrom (arrow.length - 1) cs + 1 else arrowsFrom 0 cs

/-- How many arrows are met on the way from the left, each behind the one before. -/
def arrows (cs : List Char) : Nat := arrowsFrom 0 cs

/-- Skipping characters while counting is counting in what is left, so the counter can be followed
place by place. -/
theorem arrowsFrom_eq (skip : Nat) (cs : List Char) :
    arrowsFrom skip cs = arrows (cs.drop skip) := by
  induction cs generalizing skip with
  | nil => rw [List.drop_nil, arrows, arrowsFrom, arrowsFrom]
  | cons c cs ih =>
    cases skip with
    | zero => rfl
    | succ skip => rw [arrowsFrom, ih, List.drop_succ_cons]

/-- The first arrow that is met is where a line is cut, and the others are met behind it. -/
theorem arrows_eq (cs : List Char) :
    arrows cs = match cutAtArrow cs with
      | none => 0
      | some (_, behind) => arrows behind + 1 := by
  induction cs with
  | nil => rfl
  | cons c cs ih =>
    rw [arrows, arrowsFrom, cutAtArrow]
    split
    · rw [arrowsFrom_eq]
      rfl
    · rw [← arrows, ih]
      cases cutAtArrow cs <;> rfl

/-- No arrow is counted exactly where the reader finds nothing to cut at. -/
theorem arrows_eq_zero_iff : arrows cs = 0 ↔ cutAtArrow cs = none := by
  rw [arrows_eq]
  cases cutAtArrow cs <;> simp

/-- One arrow is counted exactly where the line can be cut, which ties the count in the message of a
refusal to the grammar. -/
theorem arrows_eq_one_iff : arrows line.toList = 1 ↔ ∃ c, Cut line c := by
  rw [arrows_eq]
  constructor
  · intro h
    cases hcut : cutAtArrow line.toList with
    | none =>
      rw [hcut] at h
      cases h
    | some halves =>
      obtain ⟨before, behind⟩ := halves
      rw [hcut] at h
      refine ⟨⟨String.ofList before, String.ofList behind⟩, cut_iff.2 ?_⟩
      rw [String.toList_ofList, String.toList_ofList]
      exact ⟨hcut, arrows_eq_zero_iff.1 (Nat.succ.inj h)⟩
  · rintro ⟨c, hc⟩
    obtain ⟨hcut, hlast⟩ := cut_iff.1 hc
    rw [hcut]
    exact congrArg (· + 1) (arrows_eq_zero_iff.2 hlast)

/-! ## Joining and cutting again -/

/-- What an arrow is but for its last blank, which may be the first of the next one. -/
def arrowHead : List Char := [' ', '-', '>']

/-- In front of an arrow another one can only start as a whole, or be short of its last blank. -/
theorem arrow_prefix_iff {word rest : List Char} (hne : word ≠ []) :
    arrow <+: word ++ (arrow ++ rest) ↔ arrow <+: word ∨ word = arrowHead := by
  match word, hne with
  | [x], _ => simp [arrow, arrowHead, List.cons_prefix_cons]
  | [x, y], _ => simp [arrow, arrowHead, List.cons_prefix_cons]
  | [x, y, z], _ => simp [arrow, arrowHead, List.cons_prefix_cons, eq_comm]
  | x :: y :: z :: u :: more, _ => simp [arrow, arrowHead, List.cons_prefix_cons]

/-- No arrow starts in front of the one that joins two paths exactly if there is none in the first
path, and that path does not end in one but for the last blank. -/
theorem clearBefore_iff (rest : List Char) :
    ClearBefore before.length (before ++ (arrow ++ rest)) ↔
      ¬ arrow <:+: before ∧ ¬ arrowHead <:+ before := by
  induction before with
  | nil => simp [ClearBefore, arrow, arrowHead]
  | cons c before ih =>
    rw [List.length_cons, List.cons_append, clearBefore_succ, ← List.cons_append,
      arrow_prefix_iff (List.cons_ne_nil _ _), ih, List.infix_cons_iff, List.suffix_cons_iff,
      eq_comm (a := arrowHead)]
    tauto

/-- When the line that is written for a record reads as that record again: no arrow is in either
path, and the received path does not end in the beginning of one, which the arrow behind it would
complete. -/
theorem cut_line_iff :
    Cut c.line c ↔ ¬ arrow <:+: c.approved.toList ∧ ¬ arrow <:+: c.received.toList ∧
      ¬ arrowHead <:+ c.received.toList := by
  rw [← clearBefore_iff c.approved.toList, ← List.append_assoc, ← toList_line,
    String.length_toList]
  exact ⟨fun h => ⟨h.last, h.first⟩, fun h => ⟨rfl, h.2, h.1⟩⟩

/-- **The grammar of a record.** A line reads as two paths exactly if they are joined by an arrow in
it, no arrow starts further to the left and none stands in the second path. Any other line is
refused with its number and as it stands. A line reads as something exactly if one arrow is met in
it on the way from the left, and then in one way only. Two paths that are written with an arrow
between them read as themselves exactly if neither holds an arrow, and the first does not end in one
but for its last blank. -/
theorem parse_grammar (n : Nat) (line : String) :
    (∀ c, parse n line = .ok c ↔ Cut line c) ∧
      ((∀ c, ¬ Cut line c) → parse n line = .error (.malformedRecord n line)) ∧
      ((∃ c, parse n line = .ok c) ↔ arrows line.toList = 1) ∧
      (∀ c other, Cut line c → Cut line other → other = c) ∧
      ∀ c : Comparison, parse n c.line = .ok c ↔
        ¬ arrow <:+: c.approved.toList ∧ ¬ arrow <:+: c.received.toList ∧
          ¬ arrowHead <:+ c.received.toList := by
  refine ⟨fun c => parse_eq_ok_iff, fun hnone => ?_, ?_, fun c other => Cut.unique, fun c => ?_⟩
  · exact parse_of_not_isRecord (fun hrecord => (isRecord_iff.1 hrecord).elim hnone) n
  · rw [arrows_eq_one_iff]
    exact exists_congr fun c => parse_eq_ok_iff
  · exact parse_eq_ok_iff.trans cut_line_iff

/-- Two arrows that share a blank are one from the left, and the second one stays in the path. -/
example : arrows "a -> -> b".toList = 1 ∧ parse 1 "a -> -> b" = .ok ⟨"a", "-> b"⟩ ∧
    (⟨"a ->", "b"⟩ : Comparison).line = "a -> -> b" := by decide +kernel

end Comparison

end Baseline
