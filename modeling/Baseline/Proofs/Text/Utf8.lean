import Baseline.Text.Utf8
import Mathlib.Algebra.Group.Nat.Defs
import Mathlib.Data.List.Basic

/-!
# UTF-8 reads back

Writing and reading are inverse to each other: the bytes of a text read as that text
(`decode?_encode`), and what reads as a text are the bytes of that text (`encode_of_decode?`). So
the bytes determine the text, the text the bytes, and reading fails exactly where there is no text
(`decode?_eq_none_iff`).

Both directions rest on one fact about the first byte of a sequence (`begun_of_start`): whatever
continues it within the bounds that `start` gives is the form of a valid character. A later byte
keeps the fact (`Begun.next`) or ends the sequence (`Begun.last`).
-/

namespace Baseline.Utf8

/-- The last `k + 1` bytes of a form that is longer than one byte: six bits in each. -/
def tail : Nat → Nat → Bytes
  | 0, n => [.ofNat (0x80 + n % 64)]
  | k + 1, n => .ofNat (0x80 + n / 64 ^ (k + 1) % 64) :: tail k n

/-- `pre` is the beginning of a form, and `p` knows all that can follow: every number that goes on
within the bounds is a character, and its form is `pre` with the bytes still owed. -/
structure Begun (p : Pending) (pre : Bytes) : Prop where
  /-- only bytes of a tail follow -/
  least : 0x80 ≤ p.least
  /-- only bytes of a tail follow -/
  greatest : p.greatest ≤ 0xBF
  /-- what follows is a character in its form -/
  ends : ∀ n, n / 64 ^ (p.owed + 1) = p.payload → p.least ≤ 0x80 + n / 64 ^ p.owed % 64 →
    0x80 + n / 64 ^ p.owed % 64 ≤ p.greatest →
      n.isValidChar ∧ encodeChar (.ofNat n) = pre ++ tail p.owed n

theorem toNat_ofNat {n : Nat} (h : n.isValidChar) : (Char.ofNat n).toNat = n := by
  rw [Char.ofNat, dif_pos h]
  rfl

/-- A character by its number: as many bytes as the number needs, six bits in each but the first. -/
theorem encodeChar_ofNat {n : Nat} (h : n.isValidChar) :
    encodeChar (.ofNat n) =
      if n < 0x80 then [.ofNat n]
      else if n < 0x800 then [.ofNat (0xC0 + n / 64), .ofNat (0x80 + n % 64)]
      else if n < 0x10000 then
        [.ofNat (0xE0 + n / 4096), .ofNat (0x80 + n / 64 % 64), .ofNat (0x80 + n % 64)]
      else
        [.ofNat (0xF0 + n / 262144), .ofNat (0x80 + n / 4096 % 64), .ofNat (0x80 + n / 64 % 64),
          .ofNat (0x80 + n % 64)] := by
  simp only [encodeChar, toNat_ofNat h]

/-! ## The first byte -/

/-- The first of two bytes. -/
theorem begun_two (v : Nat) (hlow : 2 ≤ v) (hhigh : v < 32) :
    Begun ⟨v, 0, 0x80, 0xBF⟩ [.ofNat (0xC0 + v)] where
  least := Nat.le_refl _
  greatest := Nat.le_refl _
  ends n hn _ _ := by
    simp only [Nat.zero_add, Nat.pow_one] at hn
    have hvalid : n.isValidChar := .inl (by omega)
    rw [encodeChar_ofNat hvalid, if_neg (by omega), if_pos (by omega), hn]
    exact ⟨hvalid, rfl⟩

/-- The first of three bytes. The bounds leave out what has a shorter form, and the surrogates. -/
theorem begun_three (v least greatest : Nat) (hv : v < 16) (hleast : 0x80 ≤ least)
    (hgreatest : greatest ≤ 0xBF) (hshort : v = 0 → 0xA0 ≤ least)
    (hsurrogate : v = 13 → greatest ≤ 0x9F) :
    Begun ⟨v, 1, least, greatest⟩ [.ofNat (0xE0 + v)] where
  least := hleast
  greatest := hgreatest
  ends n hn hlow hhigh := by
    simp only [Nat.reduceAdd, Nat.reducePow, Nat.pow_one] at hn hlow hhigh
    have hvalid : n.isValidChar := by
      simp only [Nat.isValidChar]
      omega
    rw [encodeChar_ofNat hvalid, if_neg (by omega), if_neg (by omega), if_pos (by omega), hn]
    exact ⟨hvalid, by simp [tail]⟩

/-- The first of four bytes. The bounds leave out what has a shorter form, and what is too great. -/
theorem begun_four (v least greatest : Nat) (hv : v ≤ 4) (hleast : 0x80 ≤ least)
    (hgreatest : greatest ≤ 0xBF) (hshort : v = 0 → 0x90 ≤ least)
    (hlarge : v = 4 → greatest ≤ 0x8F) :
    Begun ⟨v, 2, least, greatest⟩ [.ofNat (0xF0 + v)] where
  least := hleast
  greatest := hgreatest
  ends n hn hlow hhigh := by
    simp only [Nat.reduceAdd, Nat.reducePow] at hn hlow hhigh
    have hvalid : n.isValidChar := by
      simp only [Nat.isValidChar]
      omega
    rw [encodeChar_ofNat hvalid, if_neg (by omega), if_neg (by omega), if_neg (by omega), hn]
    exact ⟨hvalid, by simp [tail]⟩

theorem ofNat_add_sub {b : UInt8} {k : Nat} (h : k ≤ b.toNat) : .ofNat (k + (b.toNat - k)) = b := by
  rw [Nat.add_sub_cancel' h, UInt8.ofNat_toNat]

/-- What the first byte of a sequence says: a character, a hole, or the beginning of a form. -/
theorem start_cases (b : UInt8) :
    (b.toNat < 0x80 ∧ start b.toNat = ([some (.ofNat b.toNat)], none)) ∨
      start b.toNat = ([none], none) ∨
      ∃ p, start b.toNat = ([], some p) ∧ Begun p [b] := by
  have hb := b.toNat_lt
  rw [start]
  -- one case for each row of the table of well-formed sequences
  by_cases h₁ : b.toNat < 0x80
  · rw [if_pos h₁]
    exact .inl ⟨h₁, rfl⟩
  rw [if_neg h₁]
  by_cases h₂ : b.toNat < 0xC2
  · rw [if_pos h₂]
    exact .inr (.inl rfl)
  rw [if_neg h₂]
  by_cases h₃ : b.toNat < 0xE0
  · rw [if_pos h₃]
    have h := begun_two (b.toNat - 0xC0) (by omega) (by omega)
    rw [ofNat_add_sub (by omega)] at h
    exact .inr (.inr ⟨_, rfl, h⟩)
  rw [if_neg h₃]
  by_cases h₄ : b.toNat < 0xF0
  · have h (least greatest : Nat) (hleast : 0x80 ≤ least) (hgreatest : greatest ≤ 0xBF)
        (hshort : b.toNat - 0xE0 = 0 → 0xA0 ≤ least)
        (hsurrogate : b.toNat - 0xE0 = 13 → greatest ≤ 0x9F) :
        Begun ⟨b.toNat - 0xE0, 1, least, greatest⟩ [b] := by
      have := begun_three (b.toNat - 0xE0) least greatest (by omega) hleast hgreatest hshort
        hsurrogate
      rwa [ofNat_add_sub (by omega)] at this
    by_cases h₅ : b.toNat = 0xE0
    · rw [if_pos h₅]
      have h := h 0xA0 0xBF (by omega) (by omega) (by omega) (by omega)
      rw [h₅] at h
      exact .inr (.inr ⟨_, rfl, h⟩)
    rw [if_neg h₅]
    by_cases h₆ : b.toNat = 0xED
    · rw [if_pos h₆]
      have h := h 0x80 0x9F (by omega) (by omega) (by omega) (by omega)
      rw [h₆] at h
      exact .inr (.inr ⟨_, rfl, h⟩)
    rw [if_neg h₆, if_pos h₄]
    exact .inr (.inr ⟨_, rfl, h _ _ (by omega) (by omega) (by omega) (by omega)⟩)
  rw [if_neg (by omega), if_neg (by omega), if_neg h₄]
  by_cases h₇ : b.toNat ≤ 0xF4
  · have h (least greatest : Nat) (hleast : 0x80 ≤ least) (hgreatest : greatest ≤ 0xBF)
        (hshort : b.toNat - 0xF0 = 0 → 0x90 ≤ least)
        (hlarge : b.toNat - 0xF0 = 4 → greatest ≤ 0x8F) :
        Begun ⟨b.toNat - 0xF0, 2, least, greatest⟩ [b] := by
      have := begun_four (b.toNat - 0xF0) least greatest (by omega) hleast hgreatest hshort hlarge
      rwa [ofNat_add_sub (by omega)] at this
    by_cases h₈ : b.toNat = 0xF0
    · rw [if_pos h₈]
      have h := h 0x90 0xBF (by omega) (by omega) (by omega) (by omega)
      rw [h₈] at h
      exact .inr (.inr ⟨_, rfl, h⟩)
    rw [if_neg h₈]
    by_cases h₉ : b.toNat < 0xF4
    · rw [if_pos h₉]
      exact .inr (.inr ⟨_, rfl, h _ _ (by omega) (by omega) (by omega) (by omega)⟩)
    rw [if_neg h₉, if_pos (by omega)]
    have h := h 0x80 0x8F (by omega) (by omega) (by omega) (by omega)
    rw [show b.toNat = 0xF4 by omega] at h
    exact .inr (.inr ⟨_, rfl, h⟩)
  rw [if_neg (by omega), if_neg (by omega), if_neg (by omega)]
  exact .inr (.inl rfl)

/-! ## The later bytes -/

/-- What is left of a number once a digit is taken off its front. -/
theorem div_pow_succ (n k : Nat) : n / 64 ^ (k + 1) = n / 64 ^ k / 64 := by
  rw [Nat.pow_succ, Nat.div_div_eq_div_mul]

/-- A byte in bounds goes on with a form. -/
theorem Begun.next {v k least greatest : Nat} {pre : Bytes} {b : UInt8}
    (h : Begun ⟨v, k + 1, least, greatest⟩ pre) (hlow : least ≤ b.toNat)
    (hhigh : b.toNat ≤ greatest) :
    Begun ⟨v * 64 + (b.toNat - 0x80), k, 0x80, 0xBF⟩ (pre ++ [b]) where
  least := Nat.le_refl _
  greatest := Nat.le_refl _
  ends n hn _ _ := by
    have hleast := h.least
    have hgreatest := h.greatest
    simp only at hleast hgreatest hn
    -- the number has this byte as its next digit, so it goes on with the longer form
    have hdigit : 0x80 + n / 64 ^ (k + 1) % 64 = b.toNat := by omega
    obtain ⟨hvalid, hform⟩ := h.ends n (by simp only [div_pow_succ n (k + 1)]; omega)
      (by simp only; omega) (by simp only; omega)
    refine ⟨hvalid, hform.trans ?_⟩
    rw [tail, hdigit, UInt8.ofNat_toNat, List.append_assoc]
    rfl

/-- A byte in bounds ends a form. -/
theorem Begun.last {v least greatest : Nat} {pre : Bytes} {b : UInt8}
    (h : Begun ⟨v, 0, least, greatest⟩ pre) (hlow : least ≤ b.toNat) (hhigh : b.toNat ≤ greatest) :
    encodeChar (.ofNat (v * 64 + (b.toNat - 0x80))) = pre ++ [b] := by
  have hleast := h.least
  have hgreatest := h.greatest
  simp only at hleast hgreatest
  obtain ⟨-, hform⟩ := h.ends (v * 64 + (b.toNat - 0x80)) (by simp only; omega)
    (by simp only; omega) (by simp only; omega)
  rw [hform, tail, show 0x80 + (v * 64 + (b.toNat - 0x80)) % 64 = b.toNat by omega,
    UInt8.ofNat_toNat]

/-! ## What reads as a text are its bytes -/

/-- Nothing but characters was read: what was read before and the bytes are their forms. -/
theorem flatMap_of_scalarsFrom (bs : Bytes) :
    ∀ (state : Option Pending) (pre : Bytes) (cs : List Char),
      (state = none ∧ pre = [] ∨ ∃ p, state = some p ∧ Begun p pre) →
      scalarsFrom state bs = cs.map some → cs.flatMap encodeChar = pre ++ bs := by
  -- on the bytes; a byte that breaks off a sequence leaves a hole, which is no character
  induction bs with
  | nil =>
    rintro state pre cs (⟨rfl, rfl⟩ | ⟨p, rfl, -⟩) h
    · obtain rfl : cs = [] := List.map_eq_nil_iff.1 h.symm
      rfl
    · cases cs <;> simp [scalarsFrom] at h
  | cons b bs ih =>
    rintro state pre cs (⟨rfl, rfl⟩ | ⟨p, rfl, hbegun⟩) h
    · rcases start_cases b with ⟨hb, hstart⟩ | hstart | ⟨p, hstart, hbegun⟩
      · rw [scalarsFrom, step, hstart] at h
        obtain ⟨c, cs, rfl, hc, hcs⟩ := List.map_eq_cons_iff.1 h.symm
        obtain rfl := Option.some.inj hc
        have hform := encodeChar_ofNat (n := b.toNat) (.inl (by omega))
        rw [if_pos hb, UInt8.ofNat_toNat] at hform
        rw [List.flatMap_cons, hform, ih none [] cs (.inl ⟨rfl, rfl⟩) hcs.symm]
        rfl
      · rw [scalarsFrom, step, hstart] at h
        cases cs <;> simp at h
      · rw [scalarsFrom, step, hstart] at h
        exact ih (some p) [b] cs (.inr ⟨p, rfl, hbegun⟩) h
    · obtain ⟨v, owed, least, greatest⟩ := p
      by_cases hbounds : least ≤ b.toNat ∧ b.toNat ≤ greatest
      · cases owed with
        | zero =>
          rw [scalarsFrom, step, if_pos hbounds] at h
          obtain ⟨c, cs, rfl, hc, hcs⟩ := List.map_eq_cons_iff.1 h.symm
          rw [List.flatMap_cons, Option.some.inj hc, hbegun.last hbounds.1 hbounds.2,
            ih none [] cs (.inl ⟨rfl, rfl⟩) hcs.symm]
          simp
        | succ k =>
          rw [scalarsFrom, step, if_pos hbounds] at h
          rw [ih _ _ cs (.inr ⟨_, rfl, hbegun.next hbounds.1 hbounds.2⟩) h]
          simp
      · rw [scalarsFrom, step, if_neg hbounds] at h
        cases cs <;> simp at h

theorem mapM_id_eq_some {α : Type} {xs : List (Option α)} {ys : List α} :
    xs.mapM id = some ys ↔ xs = ys.map some := by
  induction xs generalizing ys with
  | nil => cases ys <;> simp
  | cons x xs ih =>
    cases x with
    | none => cases ys <;> simp
    | some a =>
      cases ys with
      | nil => simp [Option.bind_eq_some_iff]
      | cons y ys => simp [Option.bind_eq_some_iff, ih, and_comm]

/-- What reads as a text are the bytes of that text. -/
theorem encode_of_decode? {bs : Bytes} {s : String} (h : decode? bs = some s) : encode s = bs := by
  obtain ⟨cs, hcs, rfl⟩ := Option.map_eq_some_iff.1 h
  rw [encode, String.toList_ofList]
  exact flatMap_of_scalarsFrom bs none [] cs (.inl ⟨rfl, rfl⟩) (mapM_id_eq_some.1 hcs)

/-! ## The bytes of a text read as that text -/

/-- The bytes that a beginning still owes are read to the end. -/
theorem scalarsFrom_tail (n : Nat) (rest : Bytes) :
    ∀ (k v least greatest : Nat), n / 64 ^ (k + 1) = v → least ≤ 0x80 + n / 64 ^ k % 64 →
      0x80 + n / 64 ^ k % 64 ≤ greatest →
      scalarsFrom (some ⟨v, k, least, greatest⟩) (tail k n ++ rest) =
        some (.ofNat n) :: scalarsFrom none rest := by
  -- on the bytes that are owed; the bounds of the first of them are given, later ones are met
  intro k
  induction k with
  | zero =>
    intro v least greatest hv hlow hhigh
    have hb : (UInt8.ofNat (0x80 + n % 64)).toNat = 0x80 + n % 64 :=
      UInt8.toNat_ofNat_of_lt' (by simp only [UInt8.size]; omega)
    simp only [Nat.zero_add, Nat.pow_one, Nat.pow_zero, Nat.div_one] at hv hlow hhigh
    rw [tail, List.singleton_append, scalarsFrom, step, hb, if_pos ⟨hlow, hhigh⟩]
    simp only [List.singleton_append]
    rw [show v * 64 + (0x80 + n % 64 - 0x80) = n by omega]
  | succ k ih =>
    intro v least greatest hv hlow hhigh
    have hb : (UInt8.ofNat (0x80 + n / 64 ^ (k + 1) % 64)).toNat = 0x80 + n / 64 ^ (k + 1) % 64 :=
      UInt8.toNat_ofNat_of_lt' (by simp only [UInt8.size]; omega)
    rw [tail, List.cons_append, scalarsFrom, step, hb, if_pos ⟨hlow, hhigh⟩]
    simp only [List.nil_append]
    rw [div_pow_succ] at hv
    exact ih _ _ _ (by omega) (by omega) (by omega)

/-- A first byte that begins a form, and the form behind it. -/
theorem scalarsFrom_start {lead v k least greatest n : Nat} (hlead : lead < 256)
    (hstart : start lead = ([], some ⟨v, k, least, greatest⟩)) (hv : n / 64 ^ (k + 1) = v)
    (hlow : least ≤ 0x80 + n / 64 ^ k % 64) (hhigh : 0x80 + n / 64 ^ k % 64 ≤ greatest)
    (rest : Bytes) :
    scalarsFrom none (.ofNat lead :: (tail k n ++ rest)) =
      some (.ofNat n) :: scalarsFrom none rest := by
  rw [scalarsFrom, step, UInt8.toNat_ofNat_of_lt' hlead, hstart]
  exact scalarsFrom_tail n rest k v least greatest hv hlow hhigh

/-- The first of two bytes is read as such. -/
theorem start_two {n : Nat} (hlow : 0x80 ≤ n) (hhigh : n < 0x800) :
    start (0xC0 + n / 64) = ([], some ⟨n / 64, 0, 0x80, 0xBF⟩) := by
  rw [start, if_neg (by omega), if_neg (by omega), if_pos (by omega), Nat.add_sub_cancel_left]

/-- The first of three bytes is read as such, and the next byte is within its bounds. -/
theorem start_three {n : Nat} (hlow : 0x800 ≤ n) (hhigh : n < 0x10000) (hvalid : n.isValidChar) :
    ∃ least greatest, start (0xE0 + n / 4096) = ([], some ⟨n / 4096, 1, least, greatest⟩) ∧
      least ≤ 0x80 + n / 64 % 64 ∧ 0x80 + n / 64 % 64 ≤ greatest := by
  simp only [Nat.isValidChar] at hvalid
  rw [start, if_neg (by omega), if_neg (by omega), if_neg (by omega)]
  by_cases h₁ : n / 4096 = 0
  · rw [if_pos (by omega), h₁]
    exact ⟨_, _, rfl, by omega, by omega⟩
  rw [if_neg (by omega)]
  by_cases h₂ : n / 4096 = 13
  · rw [if_pos (by omega), h₂]
    exact ⟨_, _, rfl, by omega, by omega⟩
  rw [if_neg (by omega), if_pos (by omega), Nat.add_sub_cancel_left]
  exact ⟨_, _, rfl, by omega, by omega⟩

/-- The first of four bytes is read as such, and the next byte is within its bounds. -/
theorem start_four {n : Nat} (hlow : 0x10000 ≤ n) (hvalid : n.isValidChar) :
    ∃ least greatest, start (0xF0 + n / 262144) = ([], some ⟨n / 262144, 2, least, greatest⟩) ∧
      least ≤ 0x80 + n / 4096 % 64 ∧ 0x80 + n / 4096 % 64 ≤ greatest := by
  simp only [Nat.isValidChar] at hvalid
  rw [start, if_neg (by omega), if_neg (by omega), if_neg (by omega), if_neg (by omega),
    if_neg (by omega), if_neg (by omega)]
  by_cases h₁ : n / 262144 = 0
  · rw [if_pos (by omega), h₁]
    exact ⟨_, _, rfl, by omega, by omega⟩
  rw [if_neg (by omega)]
  by_cases h₂ : n / 262144 = 4
  · rw [if_neg (by omega), if_pos (by omega), h₂]
    exact ⟨_, _, rfl, by omega, by omega⟩
  rw [if_pos (by omega), Nat.add_sub_cancel_left]
  exact ⟨_, _, rfl, by omega, by omega⟩

/-- A character in its form is read as that character. -/
theorem scalarsFrom_encodeChar (c : Char) (rest : Bytes) :
    scalarsFrom none (encodeChar c ++ rest) = some c :: scalarsFrom none rest := by
  have hvalid : c.toNat.isValidChar := c.valid
  generalize hn : c.toNat = n at hvalid
  obtain rfl : Char.ofNat n = c := by rw [← hn, Char.ofNat_toNat]
  rw [encodeChar_ofNat hvalid]
  have hrange := hvalid
  simp only [Nat.isValidChar] at hrange
  by_cases h₁ : n < 0x80
  · have hb : (UInt8.ofNat n).toNat = n :=
      UInt8.toNat_ofNat_of_lt' (by simp only [UInt8.size]; omega)
    rw [if_pos h₁, List.singleton_append, scalarsFrom, step, hb, start, if_pos h₁]
    rfl
  rw [if_neg h₁]
  by_cases h₂ : n < 0x800
  · rw [if_pos h₂]
    exact scalarsFrom_start (by omega) (start_two (by omega) h₂) (by simp) (by simp)
      (by simp only [Nat.pow_zero, Nat.div_one]; omega) rest
  rw [if_neg h₂]
  by_cases h₃ : n < 0x10000
  · obtain ⟨least, greatest, hstart, hleast, hgreatest⟩ := start_three (by omega) h₃ hvalid
    rw [if_pos h₃]
    have := scalarsFrom_start (n := n) (by omega) hstart (by simp) (by simpa using hleast)
      (by simpa using hgreatest) rest
    simpa [tail] using this
  · obtain ⟨least, greatest, hstart, hleast, hgreatest⟩ := start_four (by omega) hvalid
    rw [if_neg h₃]
    have := scalarsFrom_start (n := n) (by omega) hstart (by simp) (by simpa using hleast)
      (by simpa using hgreatest) rest
    simpa [tail] using this

/-- The bytes of a text read as that text, whatever follows. -/
theorem scalars_encode_append (cs : List Char) (rest : Bytes) :
    scalarsFrom none (cs.flatMap encodeChar ++ rest) = cs.map some ++ scalarsFrom none rest := by
  induction cs with
  | nil => rfl
  | cons c cs ih =>
    rw [List.flatMap_cons, List.append_assoc, scalarsFrom_encodeChar, ih]
    rfl

/-- The bytes of a text read as that text. Character by character: the first byte says what is owed,
and each byte that follows pays one part of it. -/
theorem decode?_encode (s : String) : decode? (encode s) = some s := by
  have h := scalars_encode_append s.toList []
  rw [List.append_nil, scalarsFrom, List.append_nil] at h
  rw [decode?, scalars, encode, h, mapM_id_eq_some.2 rfl, Option.map_some, String.ofList_toList]

/-- Texts with the same bytes are the same. -/
theorem encode_injective : Function.Injective encode := by
  intro s t h
  have hs := decode?_encode s
  rw [h, decode?_encode t] at hs
  exact (Option.some.inj hs).symm

theorem encode_append (s t : String) : encode (s ++ t) = encode s ++ encode t := by
  rw [encode, String.toList_append, List.flatMap_append, encode, encode]

/-! ## Cutting text and cutting bytes -/

/-- The form of a character above 0x7F has no byte below 0x80. -/
theorem le_of_mem_encodeChar {c : Char} (hc : 0x80 ≤ c.toNat) {b : UInt8} (h : b ∈ encodeChar c) :
    0x80 ≤ b.toNat := by
  have hvalid : c.toNat.isValidChar := c.valid
  simp only [Nat.isValidChar] at hvalid
  have hof {m : Nat} (hm : 0x80 ≤ m) (hlt : m < 256) : 0x80 ≤ (UInt8.ofNat m).toNat := by
    rwa [UInt8.toNat_ofNat_of_lt' hlt]
  rw [encodeChar, if_neg (by omega)] at h
  split_ifs at h with h₁ h₂ <;>
    simp only [List.mem_cons, List.not_mem_nil, or_false] at h
  · rcases h with rfl | rfl <;> exact hof (by omega) (by omega)
  · rcases h with rfl | rfl | rfl <;> exact hof (by omega) (by omega)
  · rcases h with rfl | rfl | rfl | rfl <;> exact hof (by omega) (by omega)

/-- A character below 0x80 is one byte. -/
theorem encodeChar_of_lt {c : Char} (h : c.toNat < 0x80) : encodeChar c = [.ofNat c.toNat] := by
  rw [encodeChar, if_pos h]

/-- Every character has a byte. -/
theorem encodeChar_ne_nil (c : Char) : encodeChar c ≠ [] := by
  simp only [encodeChar]
  split_ifs <;> exact List.cons_ne_nil _ _

/-- A byte below 0x80 stands for one character only, and only by itself. -/
theorem mem_encodeChar_iff {c s : Char} (hs : s.toNat < 0x80) :
    .ofNat s.toNat ∈ encodeChar c ↔ c = s := by
  have hbyte : (UInt8.ofNat s.toNat).toNat = s.toNat :=
    UInt8.toNat_ofNat_of_lt' (by simp only [UInt8.size]; omega)
  constructor
  · intro h
    by_cases hc : c.toNat < 0x80
    · rw [encodeChar_of_lt hc, List.mem_singleton] at h
      have hnat := congrArg UInt8.toNat h
      rw [hbyte, UInt8.toNat_ofNat_of_lt' (by simp only [UInt8.size]; omega)] at hnat
      exact Char.toNat_inj.1 hnat.symm
    · have := le_of_mem_encodeChar (by omega) h
      omega
  · rintro rfl
    rw [encodeChar_of_lt hs]
    exact List.mem_singleton_self _

/-- The bytes of a text are cut where the text is, at a separator below 0x80. -/
theorem splitWhere_flatMap_encodeChar {s : Char} (hs : s.toNat < 0x80) (cs : List Char) :
    splitWhere (· == .ofNat s.toNat) (cs.flatMap encodeChar) =
      (splitWhere (· == s) cs).map (·.flatMap encodeChar) := by
  induction cs with
  | nil => rfl
  | cons c cs ih =>
    rw [List.flatMap_cons]
    by_cases hc : c = s
    · subst hc
      rw [encodeChar_of_lt hs, List.singleton_append,
        splitWhere_cons_of_pos (p := (· == UInt8.ofNat c.toNat)) (beq_self_eq_true _),
        splitWhere_cons_of_pos (p := (· == c)) (beq_self_eq_true _), ih]
      rfl
    · have hnone (b : UInt8) (hb : b ∈ encodeChar c) : (b == .ofNat s.toNat) = false := by
        rw [beq_eq_false_iff_ne]
        rintro rfl
        exact hc ((mem_encodeChar_iff hs).1 hb)
      rw [splitWhere_append_of_neg hnone,
        splitWhere_cons_of_neg (p := (· == s)) (beq_eq_false_iff_ne.2 hc), ih]
      cases splitWhere (· == s) cs <;> rfl

/-! ## Bytes that are text -/

/-- Bytes that are UTF-8 throughout. -/
def IsText (bs : Bytes) : Prop := ∃ s, encode s = bs

theorem isText_nil : IsText [] := ⟨"", rfl⟩

/-- Bytes are read as a text exactly if they are how the text is written. -/
theorem decode?_eq_some_iff {bs : Bytes} {s : String} : decode? bs = some s ↔ encode s = bs :=
  ⟨encode_of_decode?, fun h => h ▸ decode?_encode s⟩

theorem decode?_eq_none_iff {bs : Bytes} : decode? bs = none ↔ ¬ IsText bs := by
  rw [Option.eq_none_iff_forall_ne_some, IsText, not_exists]
  exact forall_congr' fun s => not_congr decode?_eq_some_iff

/-- A character below 0x80 at the end has no say in whether the bytes are text. -/
theorem isText_append_singleton {c : Char} (hc : c.toNat < 0x80) {bs : Bytes} :
    IsText (bs ++ [.ofNat c.toNat]) ↔ IsText bs := by
  have hbyte : encodeChar c = [.ofNat c.toNat] := encodeChar_of_lt hc
  constructor
  · rintro ⟨s, hs⟩
    rw [encode] at hs
    rcases List.eq_nil_or_concat s.toList with hnil | ⟨front, last, hlast⟩
    · rw [hnil] at hs
      exact absurd hs.symm (List.append_ne_nil_of_right_ne_nil _ (List.cons_ne_nil _ _))
    -- the last byte is one of the last character, so that is `c`
    rw [hlast, List.concat_eq_append, List.flatMap_append, List.flatMap_singleton] at hs
    have hmem : .ofNat c.toNat ∈ encodeChar last := by
      have hend := congrArg List.getLast? hs
      rw [List.getLast?_concat, List.getLast?_append_of_ne_nil _ (encodeChar_ne_nil last)] at hend
      exact List.mem_of_getLast? hend
    obtain rfl := (mem_encodeChar_iff hc).1 hmem
    rw [hbyte] at hs
    refine ⟨.ofList front, ?_⟩
    rw [encode, String.toList_ofList]
    exact (List.append_inj' hs rfl).1
  · rintro ⟨s, rfl⟩
    refine ⟨s ++ String.singleton c, ?_⟩
    rw [encode_append, encode, encode, String.toList_singleton, List.flatMap_singleton, hbyte]

end Baseline.Utf8
