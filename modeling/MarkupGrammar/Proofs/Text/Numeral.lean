import MarkupGrammar.Text.Numeral
import Mathlib.Algebra.Order.Group.Nat
import Mathlib.Data.Int.Notation
import Mathlib.Data.Nat.Notation

/-! # Short numerals

Digits by their characters, and the numerals of one and two characters: two digits, or a sign and a
digit. -/

namespace MarkupGrammar.Text

variable {radix n : ℕ} {c d : Char}

/-! ## Digits -/

theorem digitValue?_ten (c : Char) :
    digitValue? 10 c = if c.isDigit then some (c.toNat - 48) else none := by
  have hdigit : c.isDigit = true ↔ 48 ≤ c.toNat ∧ c.toNat ≤ 57 := Char.isDigit_iff_toNat
  rw [digitValue?]
  by_cases h : c.isDigit
  · obtain ⟨hlo, hhi⟩ := hdigit.mp h
    simp [h, hlo, hhi]
    omega
  · have hno : ¬ (48 ≤ c.toNat ∧ c.toNat ≤ 57) := fun hc => h (hdigit.mpr hc)
    rw [if_neg h]
    simp only [Option.filter]
    grind

/-- Digits of any radix are ASCII characters. -/
theorem toNat_lt_of_digitValue? (h : digitValue? radix c = some n) : c.toNat < 128 := by
  by_contra hc
  have h1 : ¬ (48 ≤ c.toNat ∧ c.toNat ≤ 57) := by omega
  have h2 : ¬ (97 ≤ c.toNat ∧ c.toNat ≤ 122) := by omega
  have h3 : ¬ (65 ≤ c.toNat ∧ c.toNat ≤ 90) := by omega
  simp [digitValue?, h1, h2, h3] at h

theorem utf8Size_of_lt (h : c.toNat < 128) : c.utf8Size = 1 :=
  Char.utf8Size_eq_one_iff.mpr (UInt32.le_iff_toNat_le.mpr (show c.toNat ≤ 127 by omega))

theorem digitValue?_lt (h : digitValue? radix c = some n) : n < radix := by
  unfold digitValue? at h
  simpa using (Option.filter_eq_some_iff.mp h).2

/-- A character beyond ASCII is no upper-case letter. -/
theorem toLower_of_le_toNat (h : 128 ≤ c.toNat) : c.toLower = c := by
  unfold Char.toLower
  refine dif_neg fun hc => ?_
  have hle : c.toNat ≤ 'Z'.toNat := UInt32.le_iff_toNat_le.mp hc.2
  have hZ : 'Z'.toNat = 90 := rfl
  omega

theorem digitValue?_sixteen : digitValue? 16 c = some n ↔ n < 16 ∧ c.toLower = n.digitChar := by
  have hascii : ∀ k < 128, ∀ n < 16, digitValue? 16 (Char.ofNat k) = some n ↔
      (Char.ofNat k).toLower = n.digitChar := by decide +kernel
  have hsmall : ∀ n < 16, n.digitChar.toNat < 128 := by decide
  constructor
  · intro h
    have hlt := digitValue?_lt h
    have hc := toNat_lt_of_digitValue? h
    rw [← Char.ofNat_toNat c] at h ⊢
    exact ⟨hlt, (hascii _ hc n hlt).mp h⟩
  · rintro ⟨hn, h⟩
    have hc : c.toNat < 128 := by
      by_contra hge
      rw [toLower_of_le_toNat (by omega)] at h
      have := hsmall n hn
      rw [← h] at this
      omega
    rw [← Char.ofNat_toNat c] at h ⊢
    exact (hascii _ hc n hn).mpr h

/-! ## Numerals -/

theorem digits?_one : digits? radix [c] = digitValue? radix c := by
  unfold digits? digitsFrom?
  cases digitValue? radix c <;> simp [digitsFrom?]

theorem digits?_two : digits? radix [c, d] = some n ↔
    ∃ high low, digitValue? radix c = some high ∧ digitValue? radix d = some low ∧
      n = high * radix + low := by
  simp only [digits?, digitsFrom?, List.isEmpty_cons, Bool.false_eq_true, if_false]
  cases digitValue? radix c with
  | none => simp
  | some high => cases digitValue? radix d <;> simp [eq_comm]

/-- A sign is no digit. -/
theorem digitValue?_plus : digitValue? radix '+' = none := by
  simp [digitValue?]

theorem digitValue?_minus : digitValue? radix '-' = none := by
  simp [digitValue?]

theorem unsigned?_one : unsigned? radix [c] = digitValue? radix c := by
  by_cases hc : c = '+'
  · subst hc
    rw [digitValue?_plus]
    rfl
  · simp [unsigned?, hc, digits?_one]

theorem unsigned?_two : unsigned? radix [c, d] = some n ↔
    (c = '+' ∧ digitValue? radix d = some n) ∨
      ∃ high low, digitValue? radix c = some high ∧ digitValue? radix d = some low ∧
        n = high * radix + low := by
  by_cases hc : c = '+'
  · subst hc
    simp [unsigned?, digits?_one, digitValue?_plus]
  · simp [unsigned?, hc, digits?_two]

/-- A character by itself is a numeral only if it is a digit. -/
theorem toNat_lt_of_signed?_one {x : ℤ} (h : signed? radix [c] = some x) : c.toNat < 128 := by
  by_cases hc : c = '-'
  · subst hc
    decide
  · cases hn : digitValue? radix c with
    | none => simp [signed?, hc, unsigned?_one, hn] at h
    | some n => exact toNat_lt_of_digitValue? hn

theorem signed?_two {x : ℤ} : signed? radix [c, d] = some x ↔
    (c = '-' ∧ ∃ n : ℕ, digitValue? radix d = some n ∧ x = -(n : ℤ)) ∨
      ∃ n : ℕ, unsigned? radix [c, d] = some n ∧ x = (n : ℤ) := by
  by_cases hc : c = '-'
  · subst hc
    have hno (n : ℕ) : unsigned? radix ['-', d] ≠ some n := by
      simp [unsigned?_two, digitValue?_minus]
    cases hn : digitValue? radix d <;> simp [signed?, digits?_one, hn, hno, eq_comm]
  · cases hn : unsigned? radix [c, d] <;> simp [signed?, hc, hn, eq_comm]

end MarkupGrammar.Text
