import Baseline.Number.Digits
import Mathlib.Algebra.Group.Nat.Defs
import Mathlib.Data.List.Induction

/-!
# Digits and the numbers they spell

A run of digits spells a number, and the number is written out in digits again. The two runs are the
same exactly if the first one has no zero in front that could be left out (`digitsText_eq_iff`).
With a sign there is more that is lost: a plus always, and the minus of a zero
(`toString_eq_iff`).
-/

namespace Baseline

variable {ds cs : List Char} {c : Char} {n : Nat}

/-! ## One digit -/

theorem isDigit_iff : c.isDigit = true ↔ 48 ≤ c.toNat ∧ c.toNat ≤ 57 := by
  rw [Char.isDigit, Bool.and_eq_true, decide_eq_true_iff, decide_eq_true_iff]
  exact Iff.rfl

theorem digitValue_eq (h : c.isDigit = true) : digitValue c = c.toNat - 48 := by
  rw [digitValue, if_pos h]
  rfl

theorem digitValue_lt (h : c.isDigit = true) : digitValue c < 10 := by
  have hrange := isDigit_iff.1 h
  rw [digitValue_eq h]
  omega

theorem digitChar_digitValue (h : c.isDigit = true) : Nat.digitChar (digitValue c) = c := by
  have hrange := isDigit_iff.1 h
  apply Char.toNat_inj.1
  rw [Nat.toNat_digitChar_of_lt_ten (digitValue_lt h), digitValue_eq h]
  omega

/-! ## Digits without a sign -/

/-- The value of digits from the left: one more digit is ten times what was there and the digit. -/
theorem digitsValue_concat (ds : List Char) (c : Char) :
    digitsValue (ds ++ [c]) = 10 * digitsValue ds + digitValue c := by
  simp [digitsValue, inBase]

theorem isDigit_of_mem_digitsText (h : c ∈ digitsText n) : c.isDigit = true :=
  Nat.isDigit_of_mem_toDigits (by decide) (by decide) h

theorem digitsText_digit (h : c.isDigit = true) : digitsText (digitValue c) = [c] := by
  rw [digitsText, Nat.toDigits_of_lt_base (digitValue_lt h), digitChar_digitValue h]

/-- One more digit behind a number is one more digit behind its digits. -/
theorem digitsText_concat (hn : 0 < n) (hc : c.isDigit = true) :
    digitsText (10 * n + digitValue c) = digitsText n ++ [c] := by
  have happend := Nat.toDigits_append_toDigits (b := 10) (by decide) hn (digitValue_lt hc)
  rw [digitsText, ← happend, ← digitsText, ← digitsText, digitsText_digit hc]

/-- No zero stands in front, unless it is all there is. -/
def Tight (ds : List Char) : Prop := ds.head? = some '0' → ds = ['0']

instance (ds : List Char) : Decidable (Tight ds) := inferInstanceAs (Decidable (_ → _))

/-- Digits without a zero in front are written out as they are read. -/
theorem digitsText_digitsValue (hne : ds ≠ []) (hdigits : ∀ c ∈ ds, c.isDigit = true)
    (htight : Tight ds) : digitsText (digitsValue ds) = ds := by
  induction ds using List.reverseRecOn with
  | nil => exact absurd rfl hne
  | append_singleton front c ih =>
    have hc : c.isDigit = true := hdigits c (by simp)
    rw [digitsValue_concat]
    by_cases hfront : front = []
    · subst hfront
      rw [List.nil_append, ← digitsText_digit hc]
      simp [digitsValue, inBase]
    · -- the front has no zero at its head, so it is written out as it is, and is not zero
      have hhead : front.head? ≠ some '0' := by
        intro hzero
        have hall := htight (by rw [List.head?_append, hzero]; rfl)
        exact hfront (List.append_eq_singleton_iff.1 hall |>.elim And.left nofun)
      have hwritten := ih hfront (fun d hd => hdigits d (List.mem_append_left _ hd))
        fun hzero => absurd hzero hhead
      have hpos : 0 < digitsValue front := by
        rw [Nat.pos_iff_ne_zero]
        intro hzero
        rw [hzero] at hwritten
        exact hhead (hwritten ▸ rfl)
      rw [digitsText_concat hpos hc, hwritten]

theorem digitsValue_cons_zero (ds : List Char) : digitsValue ('0' :: ds) = digitsValue ds := rfl

/-- Digits stay below the power of ten of their number, so there are at least as many digits as the
value needs. -/
theorem digitsValue_lt (h : ∀ c ∈ ds, c.isDigit = true) : digitsValue ds < 10 ^ ds.length := by
  induction ds using List.reverseRecOn with
  | nil => decide
  | append_singleton front c ih =>
    have hfront := ih fun d hd => h d (List.mem_append_left _ hd)
    have hc := digitValue_lt (h c (by simp))
    rw [digitsValue_concat, List.length_append, List.length_singleton, Nat.pow_succ]
    omega

/-- A number that digits spell is written out with as many digits at most. -/
theorem length_digitsText_le (hne : ds ≠ []) (h : ∀ c ∈ ds, c.isDigit = true) :
    (digitsText (digitsValue ds)).length ≤ ds.length :=
  (Nat.length_toDigits_le_iff (by decide) (List.length_pos_iff.2 hne)).2 (digitsValue_lt h)

/-- Digits are what is written for their value exactly if no zero stands in front that could be left
out. -/
theorem digitsText_eq_iff (hne : ds ≠ []) (hdigits : ∀ c ∈ ds, c.isDigit = true) :
    digitsText (digitsValue ds) = ds ↔ Tight ds := by
  refine ⟨fun hsame hzero => ?_, digitsText_digitsValue hne hdigits⟩
  obtain ⟨rest, rfl⟩ := List.head?_eq_some_iff.1 hzero
  by_cases hrest : rest = []
  · rw [hrest]
  · -- without the zero in front the number is the same, and has a digit less
    have hshort := length_digitsText_le hrest fun d hd => hdigits d (List.mem_cons_of_mem _ hd)
    rw [← digitsValue_cons_zero, hsame, List.length_cons] at hshort
    omega

/-! ## Digits with a sign -/

/-- An integer that is spelled as it is written out: without a plus, without a zero in front, and
not as the negative of zero. -/
structure PlainInteger (cs : List Char) : Prop where
  /-- it has no plus -/
  noPlus : cs.head? ≠ some '+'
  /-- it has no zero in front -/
  tight : Tight (takeSign cs).2
  /-- it is not minus zero -/
  notMinusZero : cs ≠ ['-', '0']

instance (cs : List Char) : Decidable (PlainInteger cs) :=
  decidable_of_iff (cs.head? ≠ some '+' ∧ Tight (takeSign cs).2 ∧ cs ≠ ['-', '0'])
    ⟨fun h => ⟨h.1, h.2.1, h.2.2⟩, fun h => ⟨h.noPlus, h.tight, h.notMinusZero⟩⟩

/-- A text reads as an integer where there are digits behind the sign and nothing else; the sign
then says which of the two integers it is. -/
theorem of_signedValue? {i : Int} (h : signedValue? cs = some i) :
    (takeSign cs).2 ≠ [] ∧ (∀ c ∈ (takeSign cs).2, c.isDigit = true) ∧
      i = if (takeSign cs).1 then -(digitsValue (takeSign cs).2 : Int)
        else digitsValue (takeSign cs).2 := by
  rw [signedValue?] at h
  dsimp only at h
  split at h
  · cases h
  · next hbad =>
    obtain ⟨hne, hdigits⟩ : (takeSign cs).2 ≠ [] ∧
        ∀ c ∈ (takeSign cs).2, c.isDigit = true := by simpa using hbad
    refine ⟨hne, hdigits, ?_⟩
    split at h
    · next hnegative => rw [if_pos hnegative, Option.some.inj h]
    · next hnegative => rw [if_neg hnegative, Option.some.inj h]

theorem toList_toString_natCast (n : Nat) : (toString (n : Int)).toList = digitsText n :=
  Nat.toList_repr

theorem toList_toString_neg (hn : 0 < n) :
    (toString (-(n : Int))).toList = '-' :: digitsText n := by
  obtain ⟨m, rfl⟩ := Nat.exists_eq_add_of_lt hn
  have hrepr : toString (-((0 + m + 1 : Nat) : Int)) = "-" ++ Nat.repr (m + 1) := by
    rw [Nat.zero_add]
    rfl
  rw [hrepr, String.toList_append, Nat.toList_repr, Nat.zero_add]
  rfl

/-- A text starts with a minus, with a plus, or with neither. -/
theorem takeSign_cases (cs : List Char) :
    (∃ ds, cs = '-' :: ds ∧ takeSign cs = (true, ds)) ∨
      (∃ ds, cs = '+' :: ds ∧ takeSign cs = (false, ds)) ∨
      cs.head? ≠ some '+' ∧ cs ≠ ['-', '0'] ∧ takeSign cs = (false, cs) := by
  rw [takeSign.eq_def]
  split
  · exact .inl ⟨_, rfl, rfl⟩
  · exact .inr (.inl ⟨_, rfl, rfl⟩)
  · next hminus hplus =>
    refine .inr (.inr ⟨fun hhead => ?_, fun heq => hminus ['0'] heq, rfl⟩)
    obtain ⟨ds, rfl⟩ := List.head?_eq_some_iff.1 hhead
    exact hplus ds rfl

/-- An integer is written out as it is read exactly if it is plain. -/
theorem toString_eq_iff {i : Int} (h : signedValue? cs = some i) :
    (toString i).toList = cs ↔ PlainInteger cs := by
  obtain ⟨hne, hdigits, rfl⟩ := of_signedValue? h
  have hsame := digitsText_eq_iff hne hdigits
  rcases takeSign_cases cs with ⟨ds, rfl, hsign⟩ | ⟨ds, rfl, hsign⟩ | ⟨hplus, hminus, hsign⟩
  · rw [hsign] at hsame ⊢
    dsimp only at hsame ⊢
    rw [if_pos rfl]
    by_cases hzero : digitsValue ds = 0
    · -- minus zero is written out as zero, and its digits are tight only as they stand
      rw [hzero] at hsame ⊢
      constructor
      · intro hwritten
        have hnull : ['0'] = '-' :: ds := hwritten
        exact absurd (List.cons.inj hnull).1 (by decide)
      · intro hplain
        have htight := hplain.tight
        rw [hsign] at htight
        exact absurd (congrArg ('-' :: ·) (hsame.2 htight).symm) hplain.notMinusZero
    · rw [toList_toString_neg (Nat.pos_of_ne_zero hzero), List.cons_inj_right, hsame]
      refine ⟨fun htight => ⟨by simp, by rwa [hsign], fun heq => ?_⟩, fun hplain => ?_⟩
      · exact hzero (List.cons_inj_right '-' |>.1 heq ▸ rfl)
      · have htight := hplain.tight
        rwa [hsign] at htight
  · rw [hsign]
    dsimp only
    rw [if_neg Bool.false_ne_true, toList_toString_natCast]
    -- a plus is never written
    refine ⟨fun hwritten => ?_, fun hplain => absurd rfl hplain.noPlus⟩
    have hmem : '+' ∈ digitsText (digitsValue ds) := hwritten ▸ List.mem_cons_self
    exact absurd (isDigit_of_mem_digitsText hmem) (by decide)
  · rw [hsign] at hsame ⊢
    dsimp only at hsame ⊢
    rw [if_neg Bool.false_ne_true, toList_toString_natCast, hsame]
    refine ⟨fun htight => ⟨hplus, by rwa [hsign], hminus⟩, fun hplain => ?_⟩
    have htight := hplain.tight
    rwa [hsign] at htight

end Baseline
