import Baseline.Proofs.Desk.Output
import Mathlib.Data.List.TakeWhile

/-!
# Reports tell the outcome

A report has up to two sections, each with a heading and lines below it that are indented, and
nothing in it is escaped: a name or a reason may be spelled like a heading, a bullet or the tally.
They do no harm, because their lines start with a blank and no other line does. So the lines below a
heading can be read back (`below_report_updating`, `below_report_failed`), and with them the names
of the baselines that were replaced, and the names and reasons of those that were not.

What a report does not tell is told by `Outcome.Agrees`: the count of the records beyond none, one
and more, and the folders of the baselines.
-/

namespace Baseline.Outcome

variable {heading other : String} {before items behind lines : List String} {a b : Outcome}

/-! ## Sections -/

/-- The line starts with a blank, as the lines below a heading do. -/
def isIndented (line : String) : Bool := line.toList.head? == some ' '

/-- Lines with a heading above them. Where there are none there is no heading. -/
def headed (heading : String) : List String → List String
  | [] => []
  | line :: lines => heading :: line :: lines

/-- The indented lines below a heading, where it stands first. -/
def below (heading : String) (lines : List String) : List String :=
  ((lines.dropWhile (· != heading)).drop 1).takeWhile isIndented

theorem headed_of_ne_nil (h : items ≠ []) : headed heading items = heading :: items := by
  cases items with
  | nil => exact absurd rfl h
  | cons line lines => rfl

/-- A heading does not occur in the section of another, because the items of a section are indented
and headings are not. -/
theorem notMem_headed (hother : heading ≠ other) (hheading : isIndented heading = false)
    (hitems : ∀ line ∈ items, isIndented line = true) : heading ∉ headed other items := by
  intro hmem
  cases items with
  | nil => exact List.not_mem_nil hmem
  | cons line lines =>
    rcases List.mem_cons.1 hmem with hsame | hmem
    · exact hother hsame
    · exact Bool.noConfusion (hheading.symm.trans (hitems heading hmem))

theorem below_of_notMem (h : heading ∉ lines) : below heading lines = [] := by
  have hdrop : lines.dropWhile (· != heading) = [] :=
    List.dropWhile_eq_nil_iff.2 fun line hline => bne_iff_ne.2 (ne_of_mem_of_not_mem hline h)
  rw [below, hdrop]
  rfl

/-- A section is read back, if its heading stands nowhere else and what follows is not indented. -/
theorem below_headed (hbefore : heading ∉ before) (hbehind : heading ∉ behind)
    (hitems : ∀ line ∈ items, isIndented line = true)
    (hends : ∀ line ∈ behind.head?, isIndented line = false) :
    below heading (before ++ (headed heading items ++ behind)) = items := by
  by_cases hnil : items = []
  · subst hnil
    exact below_of_notMem fun hmem => (List.mem_append.1 hmem).elim hbefore hbehind
  · have hskip : ∀ line ∈ before, (line != heading) = true :=
      fun line hline => bne_iff_ne.2 (ne_of_mem_of_not_mem hline hbefore)
    have hstop : behind.takeWhile isIndented = [] := by
      cases behind with
      | nil => rfl
      | cons line lines => exact List.takeWhile_cons_of_neg (by rw [hends line rfl]; decide)
    rw [below, headed_of_ne_nil hnil, List.dropWhile_append_of_pos hskip, List.cons_append,
      List.dropWhile_cons_of_neg (by simp), List.drop_one, List.tail_cons,
      List.takeWhile_append_of_pos hitems, hstop, List.append_nil]

/-! ## The lines of a report -/

/-- What is told of a baseline that could not be replaced. -/
def told (f : FailedMove) : String × String := (nameOf f.approved, f.reason)

/-- The bullet of a name. -/
def bulletOf (name : String) : String := "  - " ++ name

/-- The two lines about a name with its reason. -/
def refusalLines (refusal : String × String) : List String :=
  [bulletOf refusal.1, "    Reason: " ++ refusal.2]

/-- The section of what was replaced is a heading with bullets below it, or nothing, like the other
one. Both are read back by the same lemma. -/
theorem approvedSection_eq (paths : List String) :
    approvedSection paths = headed "Updating:" ((paths.map nameOf).map bulletOf) := by
  rw [List.map_map]
  cases paths <;> rfl

/-- The section of what was not replaced is a heading with two lines for each refusal below it, or
nothing. -/
theorem failedSection_eq (moves : List FailedMove) :
    failedSection moves = headed "Failed to update:" ((moves.map told).flatMap refusalLines) := by
  rw [List.flatMap_map]
  cases moves <;> rfl

/-- A report shows nothing of an outcome but its names, its reasons and its counts. -/
theorem report_eq (o : Outcome) :
    o.report = [headline o.recordCount] ++
      (headed "Updating:" ((o.approved.map nameOf).map bulletOf) ++
        (headed "Failed to update:" ((o.failed.map told).flatMap refusalLines) ++
          ["", tally o.approved.length])) := by
  rw [report, approvedSection_eq, failedSection_eq, List.append_assoc, List.append_assoc]

theorem isIndented_of_mem_bullets (names : List String) :
    ∀ line ∈ names.map bulletOf, isIndented line = true := by
  intro line hline
  obtain ⟨name, -, rfl⟩ := List.mem_map.1 hline
  rw [isIndented, bulletOf, String.toList_append]
  rfl

theorem isIndented_of_mem_refusals (refusals : List (String × String)) :
    ∀ line ∈ refusals.flatMap refusalLines, isIndented line = true := by
  intro line hline
  obtain ⟨⟨name, reason⟩, -, hline⟩ := List.mem_flatMap.1 hline
  rcases List.mem_pair.1 hline with rfl | rfl
  · rw [isIndented, bulletOf, String.toList_append]
    rfl
  · rw [isIndented, String.toList_append]
    rfl

/-- The last line starts with a letter that no heading starts with. -/
theorem head_tally (n : Nat) : (tally n).toList.head? = some 'A' := by
  match n with
  | 0 => rfl
  | 1 => rfl
  | n + 2 =>
    rw [tally, String.toList_append, String.toList_append]
    · rfl
    · exact nofun

/-- The last line is no heading, since it begins with another letter. -/
theorem tally_ne (h : heading.toList.head? ≠ some 'A') (n : Nat) : heading ≠ tally n :=
  fun hsame => h (hsame ▸ head_tally n)

/-- The first line says whether there are no records, one or more. -/
theorem headline_inj {m n : Nat} :
    headline m = headline n ↔ (m = 0 ↔ n = 0) ∧ (m = 1 ↔ n = 1) ∧ (1 < m ↔ 1 < n) := by
  match m, n with
  | 0, 0 | 1, 1 => decide
  | 0, 1 | 1, 0 => decide
  | 0, n + 2 | n + 2, 0 | 1, n + 2 | n + 2, 1 =>
    exact iff_of_false (by simp [headline]) (by omega)
  | m + 2, n + 2 => exact iff_of_true rfl (by omega)

theorem headline_ne (hnone : heading ≠ headline 0) (hone : heading ≠ headline 1)
    (hmore : heading ≠ headline 2) (n : Nat) : heading ≠ headline n := by
  match n with
  | 0 => exact hnone
  | 1 => exact hone
  | n + 2 => exact hmore

/-! ## Reading a report -/

/-- Below the one heading stand the names that were replaced. -/
theorem below_report_updating (o : Outcome) :
    below "Updating:" o.report = (o.approved.map nameOf).map bulletOf := by
  rw [report_eq]
  refine below_headed ?_ ?_ (isIndented_of_mem_bullets _) ?_
  · exact fun hmem =>
      headline_ne (by decide) (by decide) (by decide) _ (List.mem_singleton.1 hmem)
  · rw [List.mem_append, List.mem_pair]
    rintro (hmem | hempty | htally)
    · exact notMem_headed (by decide) rfl (isIndented_of_mem_refusals _) hmem
    · exact absurd hempty (by decide)
    · exact tally_ne (by decide) _ htally
  · cases hrefused : (o.failed.map told).flatMap refusalLines with
    | nil => simp [headed, isIndented]
    | cons line lines => simp [headed, isIndented]

/-- Below the other stand those that were not, with the reasons. -/
theorem below_report_failed (o : Outcome) :
    below "Failed to update:" o.report = (o.failed.map told).flatMap refusalLines := by
  rw [report_eq, ← List.append_assoc]
  refine below_headed ?_ ?_ (isIndented_of_mem_refusals _) (by simp [isIndented])
  · rw [List.mem_append, List.mem_singleton]
    rintro (hheadline | hmem)
    · exact headline_ne (by decide) (by decide) (by decide) _ hheadline
    · exact notMem_headed (by decide) rfl (isIndented_of_mem_bullets _) hmem
  · rw [List.mem_pair]
    rintro (hempty | htally)
    · exact absurd hempty (by decide)
    · exact tally_ne (by decide) _ htally

/-- What stands behind the front of a line. -/
def behindFront (front line : String) : String :=
  String.ofList (line.toList.drop front.toList.length)

/-- The names that a report gives as replaced. -/
def replacedIn (lines : List String) : List String :=
  (below "Updating:" lines).map (behindFront "  - ")

/-- Two lines each, a name and a reason. -/
def refusalsOf : List String → List (String × String)
  | name :: reason :: lines =>
    (behindFront "  - " name, behindFront "    Reason: " reason) :: refusalsOf lines
  | _ => []

/-- The names that a report gives as not replaced, with the reasons. -/
def refusalsIn (lines : List String) : List (String × String) :=
  refusalsOf (below "Failed to update:" lines)

theorem behindFront_append (front text : String) : behindFront front (front ++ text) = text := by
  rw [behindFront, String.toList_append, List.drop_left, String.ofList_toList]

/-- Two lines for each refusal are read back two at a time. -/
theorem refusalsOf_flatMap (refusals : List (String × String)) :
    refusalsOf (refusals.flatMap refusalLines) = refusals := by
  induction refusals with
  | nil => rfl
  | cons refusal refusals ih =>
    obtain ⟨name, reason⟩ := refusal
    rw [List.flatMap_cons, refusalLines, List.cons_append, List.cons_append, List.nil_append,
      refusalsOf, ih, bulletOf, behindFront_append, behindFront_append]

/-- The names of what was replaced can be read off the report. -/
theorem replacedIn_report (o : Outcome) : replacedIn o.report = o.approved.map nameOf := by
  have hback : behindFront "  - " ∘ bulletOf = id := funext fun name => behindFront_append _ name
  rw [replacedIn, below_report_updating, List.map_map, hback, List.map_id]

/-- So can the refusals, each with its name and its reason. -/
theorem refusalsIn_report (o : Outcome) : refusalsIn o.report = o.failed.map told := by
  rw [refusalsIn, below_report_failed, refusalsOf_flatMap]

/-! ## What a report tells -/

/-- Two outcomes that a reader of reports takes for the same. -/
structure Agrees (a b : Outcome) : Prop where
  /-- both have no records, or both have some -/
  none : a.recordCount = 0 ↔ b.recordCount = 0
  /-- both have a single one, or neither does -/
  one : a.recordCount = 1 ↔ b.recordCount = 1
  /-- both have more than one, or neither does -/
  more : 1 < a.recordCount ↔ 1 < b.recordCount
  /-- the baselines that were replaced have the same names, in order -/
  approved : a.approved.map nameOf = b.approved.map nameOf
  /-- those that were not have the same names and reasons, in order -/
  failed : a.failed.map told = b.failed.map told

/-- Reports are equal exactly where outcomes agree in what the report shows: number and names of the
replaced, the refusals, and the wording that depends on the number of records. -/
theorem report_inj : a.report = b.report ↔ a.Agrees b := by
  constructor
  · intro h
    have hheadline : headline a.recordCount = headline b.recordCount := by
      rw [report_eq, report_eq] at h
      exact (List.cons.inj h).1
    obtain ⟨hnone, hone, hmore⟩ := headline_inj.1 hheadline
    refine ⟨hnone, hone, hmore, ?_, ?_⟩
    · rw [← replacedIn_report, h, replacedIn_report]
    · rw [← refusalsIn_report, h, refusalsIn_report]
  · intro h
    have hcount : a.approved.length = b.approved.length := by
      simpa using congrArg List.length h.approved
    rw [report_eq, report_eq, h.approved, h.failed, hcount,
      headline_inj.2 ⟨h.none, h.one, h.more⟩]

/-- **Reports tell the outcome.** On an output that does not fail two outcomes, whatever they hold,
give the same lines exactly if their counts agree in being none, one or more, and they give the same
names of baselines that were replaced and the same names and reasons of those that were not, in the
same order. These can be read off the lines. -/
theorem report_tells {δ : Type} {o : Outside (StateM δ)} {s s' : δ} (hs : Unfailing o s)
    (hs' : Unfailing o s') (a b : Outcome) :
    (written o a.report s = written o b.report s' ↔ a.Agrees b) ∧
      replacedIn (written o a.report s) = a.approved.map nameOf ∧
      refusalsIn (written o a.report s) = a.failed.map told := by
  rw [written_eq hs, written_eq hs']
  exact ⟨report_inj, replacedIn_report a, refusalsIn_report a⟩

/-- Names and a reason that are spelled like the lines of a report. -/
def disguised : Outcome where
  recordCount := 3
  approved := ["w/Updating:", "w/Failed to update:"]
  failed := [⟨"w/Approved 1 file.", "  - Failed to update:"⟩]

/-- The same three names, one of them on the other side. -/
def undisguised : Outcome where
  recordCount := 3
  approved := ["w/Updating:"]
  failed := [⟨"w/Failed to update:", ""⟩, ⟨"w/Approved 1 file.", "  - Failed to update:"⟩]

/-- A disguised report is not mistaken for the other, and it is read as it was meant. -/
theorem report_tells_disguised :
    Unfailing bareDesk emptyDesk ∧
      written bareDesk disguised.report emptyDesk ≠ written bareDesk undisguised.report emptyDesk ∧
      replacedIn (written bareDesk disguised.report emptyDesk) =
        ["Updating:", "Failed to update:"] ∧
      refusalsIn (written bareDesk disguised.report emptyDesk) =
        [("Approved 1 file.", "  - Failed to update:")] := by
  obtain ⟨hsame, hreplaced, hrefused⟩ :=
    report_tells unfailing_bareDesk unfailing_bareDesk disguised undisguised
  refine ⟨unfailing_bareDesk, fun h => ?_, hreplaced.trans (by decide +kernel),
    hrefused.trans (by decide +kernel)⟩
  exact absurd (hsame.1 h).approved (by decide +kernel)

end Baseline.Outcome
