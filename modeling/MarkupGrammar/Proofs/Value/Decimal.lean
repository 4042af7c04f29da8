import MarkupGrammar.Value.Decimal
import Mathlib.Algebra.Order.Field.Rat
import Mathlib.Algebra.Order.Floor.Ring
import Mathlib.Algebra.Order.Group.Unbundled.Abs
import Mathlib.Algebra.Order.Monoid.Unbundled.Pow
import Mathlib.Data.Nat.Find
import Mathlib.Data.Rat.Floor
import Mathlib.Order.Monotone.Odd
import Mathlib.Tactic.FieldSimp
import Mathlib.Tactic.Linarith
import Mathlib.Tactic.Ring

/-! # Decimal numbers as rational numbers

A decimal number stands for a rational one, its mantissa divided by a power of ten. As numbers are
kept reduced, different decimal numbers stand for different rational ones (`toRat_injective`), and
comparing them is comparing what they stand for (`compare_eq`). -/

namespace MarkupGrammar.Decimal

/-! ## Numbers -/

section

variable {a b : Decimal}

/-- The rational number that a decimal number stands for. -/
def toRat (d : Decimal) : ℚ := d.mantissa / 10 ^ d.scale

theorem toRat_ofInt (n : Int) : (ofInt n).toRat = n := by simp [ofInt, toRat]

/-! ## Order -/

/-- A number with less places than another one is not equal to it. -/
theorem scale_le_of_cross (h : a.mantissa * 10 ^ b.scale = b.mantissa * 10 ^ a.scale) :
    b.scale ≤ a.scale := by
  by_contra hlt
  obtain ⟨k, hk⟩ := Nat.exists_eq_add_of_lt (not_le.mp hlt)
  have hpow : (10 : Int) ^ a.scale ≠ 0 := by positivity
  have hmantissa : a.mantissa * 10 ^ (k + 1) = b.mantissa := by
    refine mul_right_cancel₀ hpow ?_
    rw [← h, hk, mul_assoc, ← pow_add]
    congr 2
    omega
  have hmod : b.mantissa % 10 = 0 := by
    rw [← hmantissa, pow_succ, ← mul_assoc]
    exact Int.mul_emod_left _ _
  rcases b.reduced with hscale | hdigit
  · omega
  · exact hdigit hmod

theorem eq_of_cross (h : a.mantissa * 10 ^ b.scale = b.mantissa * 10 ^ a.scale) : a = b := by
  have hscale : a.scale = b.scale := le_antisymm (scale_le_of_cross h.symm) (scale_le_of_cross h)
  rw [hscale] at h
  have hpow : (10 : Int) ^ b.scale ≠ 0 := by positivity
  have hmantissa : a.mantissa = b.mantissa := mul_right_cancel₀ hpow h
  cases a
  cases b
  simp_all

theorem toRat_lt_iff :
    a.toRat < b.toRat ↔ a.mantissa * 10 ^ b.scale < b.mantissa * 10 ^ a.scale := by
  rw [toRat, toRat, div_lt_div_iff₀ (by positivity) (by positivity)]
  exact_mod_cast Iff.rfl

/-- **Different decimal numbers stand for different rational ones.** -/
theorem toRat_injective : Function.Injective toRat := by
  intro a b h
  refine eq_of_cross (le_antisymm ?_ ?_)
  · exact not_lt.mp fun hlt => absurd (toRat_lt_iff.mpr hlt) h.symm.not_lt
  · exact not_lt.mp fun hlt => absurd (toRat_lt_iff.mpr hlt) h.not_lt

/-- **Comparing decimal numbers** is comparing the rational ones. -/
theorem compare_eq (a b : Decimal) : a.compare b = Ord.compare a.toRat b.toRat := by
  rw [compare]
  rcases lt_trichotomy a.toRat b.toRat with h | h | h
  · rw [compare_lt_iff_lt.mpr h]
    exact compare_lt_iff_lt.mpr (toRat_lt_iff.mp h)
  · rw [compare_eq_iff_eq.mpr h, toRat_injective h]
    exact compare_eq_iff_eq.mpr rfl
  · rw [compare_gt_iff_gt.mpr h]
    exact compare_gt_iff_gt.mpr (toRat_lt_iff.mp h)

theorem compare_ofInt_eq_lt {m : Int} : a.compare (ofInt m) = .lt ↔ a.toRat < m := by
  rw [compare_eq, toRat_ofInt, compare_lt_iff_lt]

theorem compare_ofInt_eq_gt {m : Int} : a.compare (ofInt m) = .gt ↔ m < a.toRat := by
  rw [compare_eq, toRat_ofInt, compare_gt_iff_gt]

instance : Std.TransCmp compare := by
  have hcompare : compare = compareOn toRat := funext₂ compare_eq
  rw [hcompare]
  infer_instance

instance : Std.LawfulEqCmp compare where
  eq_of_compare h := toRat_injective (compare_eq_iff_eq.mp ((compare_eq _ _).symm.trans h))

/-! ## Digits -/

theorem toRat_strip (mantissa scale : Nat) :
    ((strip mantissa scale).1 : ℚ) / 10 ^ (strip mantissa scale).2 = mantissa / 10 ^ scale := by
  induction scale generalizing mantissa with
  | zero => rfl
  | succ scale ih =>
    rw [strip]
    split
    · rename_i hdigit
      have hmantissa : mantissa = mantissa / 10 * 10 := by omega
      rw [ih, pow_succ]
      conv_rhs => rw [hmantissa]
      push_cast
      field_simp
    · rfl

/-- The number with given digits, sign and scale. -/
theorem toRat_ofDigits (negative : Bool) (mantissa scale : Nat) :
    (ofDigits negative mantissa scale).toRat =
      if negative then -(mantissa / 10 ^ scale : ℚ) else mantissa / 10 ^ scale := by
  rw [← toRat_strip, toRat, ofDigits]
  cases negative with
  | true => simp [neg_div]
  | false => simp

end

/-! ## Rounding of decimal numbers

Of a rational number as many places are kept as its digits fit, 28 at most, and the last one is
rounded, half away from zero. If this makes one digit more, the number is rounded once more, with
one place less. The places that are kept depend on the number, so that rounding is no single step
function; but where one place less is kept, the rounded number is not below any number that has the
place (`roundedMagnitude_mono`). Numbers whose digits fit are not changed
(`IsRepresentable.rounded_eq`). -/

/-! ## Rounding -/

/-- The digits of a number up to a number of places, the last one rounded half up. -/
def digitsAt (places : ℕ) (x : ℚ) : ℤ := ⌊x * 10 ^ places + 1 / 2⌋

/-- The number at a number of places. -/
def roundedAt (places : ℕ) (x : ℚ) : ℚ := digitsAt places x / 10 ^ places

/-- How many places of a number are kept: as many as its digits fit. -/
def placesKept (x : ℚ) : ℕ := Nat.findGreatest (fun p => x * 10 ^ p < mantissaBound) maxScale

/-- A number from zero on, rounded at the places that are kept. If its digits do not fit then, it is
rounded again, with one place less. -/
def roundedMagnitude (x : ℚ) : ℚ :=
  let p := placesKept x
  if p = 0 ∨ digitsAt p x < mantissaBound then roundedAt p x
  else roundedAt (p - 1) (roundedAt p x)

/-- A number, rounded half away from zero. -/
def rounded (x : ℚ) : ℚ := if 0 ≤ x then roundedMagnitude x else -roundedMagnitude (-x)

/-- The numbers that need not be rounded. -/
def IsRepresentable (x : ℚ) : Prop :=
  ∃ m k : ℕ, m < mantissaBound ∧ k ≤ maxScale ∧ |x| = m / 10 ^ k

variable {x y : ℚ} {m k p q : ℕ}

theorem digitsAt_mono (p : ℕ) (h : x ≤ y) : digitsAt p x ≤ digitsAt p y := by
  have hpow : (0 : ℚ) ≤ 10 ^ p := by positivity
  exact Int.floor_mono (by linarith [mul_le_mul_of_nonneg_right h hpow])

theorem roundedAt_mono (p : ℕ) : Monotone (roundedAt p) := by
  intro x y h
  have hdigits : (digitsAt p x : ℚ) ≤ digitsAt p y := by exact_mod_cast digitsAt_mono p h
  exact div_le_div_of_nonneg_right hdigits (by positivity)

/-- A whole number of units of the last place. -/
theorem digitsAt_eq_of_mul {n : ℤ} (h : x * 10 ^ p = n) : digitsAt p x = n := by
  rw [digitsAt, h, Int.floor_intCast_add]
  norm_num

theorem roundedAt_eq_self {n : ℤ} (h : x * 10 ^ p = n) : roundedAt p x = x := by
  rw [roundedAt, digitsAt_eq_of_mul h, ← h]
  field_simp

/-! ### Places -/

theorem le_placesKept (hk : k ≤ maxScale) (h : x * 10 ^ k < mantissaBound) : k ≤ placesKept x :=
  Nat.le_findGreatest hk h

theorem placesKept_eq (hx : 0 ≤ x) (hk : k ≤ maxScale) (h : x * 10 ^ k < mantissaBound)
    (hnext : k = maxScale ∨ (mantissaBound : ℚ) ≤ x * 10 ^ (k + 1)) : placesKept x = k := by
  refine Nat.findGreatest_eq_iff.mpr ⟨hk, fun _ => h, fun n hkn hn => ?_⟩
  rcases hnext with rfl | hnext
  · omega
  · have hpow : (10 : ℚ) ^ (k + 1) ≤ 10 ^ n := pow_le_pow_right₀ (by norm_num) hkn
    exact not_lt.mpr (hnext.trans (mul_le_mul_of_nonneg_left hpow hx))

theorem placesKept_anti (h : x ≤ y) : placesKept y ≤ placesKept x :=
  Nat.findGreatest_mono_left
    (fun _ hy => lt_of_le_of_lt (mul_le_mul_of_nonneg_right h (by positivity)) hy) maxScale

theorem mul_placesKept_lt_of_ne_zero (h : placesKept x ≠ 0) :
    x * 10 ^ placesKept x < mantissaBound :=
  Nat.findGreatest_of_ne_zero (P := fun p => x * 10 ^ p < mantissaBound) rfl h

theorem bound_le_of_placesKept_lt (hk : placesKept x < k) (hmax : k ≤ maxScale) :
    (mantissaBound : ℚ) ≤ x * 10 ^ k :=
  not_lt.mp (Nat.findGreatest_is_greatest (P := fun p => x * 10 ^ p < mantissaBound) hk hmax)

/-! ### Rounding twice -/

/-- The least number whose digits do not fit, with one place less. -/
theorem roundedAt_bound (p : ℕ) :
    roundedAt p (mantissaBound / 10 ^ (p + 1)) = (mantissaBound + 4) / 10 ^ (p + 1) := by
  have hscale : (mantissaBound : ℚ) / 10 ^ (p + 1) * 10 ^ p = mantissaBound / 10 := by
    rw [pow_succ]
    field_simp
  have hdigits : digitsAt p (mantissaBound / 10 ^ (p + 1)) = 7922816251426433759354395034 := by
    rw [digitsAt, hscale, Int.floor_eq_iff, mantissaBound]
    norm_num
  rw [roundedAt, hdigits, pow_succ, mantissaBound]
  norm_num
  field_simp
  norm_num

/-- Numbers are rounded once, or else their digits are rounded up to the bound. -/
theorem roundedMagnitude_cases (x : ℚ) :
    (placesKept x = 0 ∨ digitsAt (placesKept x) x < mantissaBound) ∧
      roundedMagnitude x = roundedAt (placesKept x) x ∨
    placesKept x ≠ 0 ∧ digitsAt (placesKept x) x = mantissaBound ∧
      roundedMagnitude x = (mantissaBound + 4) / 10 ^ placesKept x := by
  by_cases h : placesKept x = 0 ∨ digitsAt (placesKept x) x < mantissaBound
  · exact .inl ⟨h, if_pos h⟩
  · rw [not_or, not_lt] at h
    obtain ⟨hplaces, hle⟩ := h
    have hlt := mul_placesKept_lt_of_ne_zero hplaces
    have hdigits : digitsAt (placesKept x) x = mantissaBound := by
      refine le_antisymm (Int.lt_add_one_iff.mp (Int.floor_lt.mpr ?_)) hle
      push_cast
      linarith
    refine .inr ⟨hplaces, hdigits, ?_⟩
    obtain ⟨p, hp⟩ := Nat.exists_eq_succ_of_ne_zero hplaces
    rw [roundedMagnitude, if_neg (by rw [hdigits]; simp [hplaces]), roundedAt.eq_def (placesKept x),
      hdigits, hp]
    exact roundedAt_bound p

theorem roundedAt_le_roundedMagnitude (x : ℚ) :
    roundedAt (placesKept x) x ≤ roundedMagnitude x := by
  rcases roundedMagnitude_cases x with ⟨-, h⟩ | ⟨-, hdigits, h⟩
  · exact h.ge
  · rw [h, roundedAt, hdigits]
    refine div_le_div_of_nonneg_right ?_ (by positivity)
    push_cast
    linarith

theorem roundedMagnitude_le (h : placesKept x ≠ 0) :
    roundedMagnitude x ≤ (mantissaBound + 4) / 10 ^ placesKept x := by
  rcases roundedMagnitude_cases x with ⟨hor, heq⟩ | ⟨-, -, heq⟩
  · have hdigits : (digitsAt (placesKept x) x : ℚ) < mantissaBound := by
      exact_mod_cast hor.resolve_left h
    rw [heq, roundedAt]
    exact div_le_div_of_nonneg_right (by linarith) (by positivity)
  · exact heq.le

/-- **Rounding keeps the order.** -/
theorem roundedMagnitude_mono : Monotone roundedMagnitude := by
  intro x y h
  rcases (placesKept_anti h).lt_or_eq with hlt | heq
  · -- the number with less places is beyond what fits in one place more, the other one is not
    obtain ⟨q, hq⟩ : ∃ q, q = placesKept y := ⟨_, rfl⟩
    rw [← hq] at hlt
    have hmax : q + 1 ≤ maxScale := hlt.trans_le (Nat.findGreatest_le _)
    have hbound := bound_le_of_placesKept_lt (x := y) (hq ▸ Nat.lt_succ_self q) hmax
    have hpow : (10 : ℚ) ^ (q + 1) ≤ 10 ^ placesKept x := pow_le_pow_right₀ (by norm_num) hlt
    calc roundedMagnitude x
        ≤ (mantissaBound + 4) / 10 ^ placesKept x := roundedMagnitude_le (by omega)
      _ ≤ (mantissaBound + 4) / 10 ^ (q + 1) :=
        div_le_div_of_nonneg_left (by positivity) (by positivity) hpow
      _ = roundedAt q (mantissaBound / 10 ^ (q + 1)) := (roundedAt_bound q).symm
      _ ≤ roundedAt q y := roundedAt_mono q ((div_le_iff₀ (by positivity)).mpr hbound)
      _ ≤ roundedMagnitude y := by rw [hq]; exact roundedAt_le_roundedMagnitude y
  · rcases roundedMagnitude_cases y with ⟨hy, hyeq⟩ | ⟨hy, -, hyeq⟩
    · rcases roundedMagnitude_cases x with ⟨-, hxeq⟩ | ⟨hne, hdigits, -⟩
      · rw [hxeq, hyeq, heq]
        exact roundedAt_mono _ h
      · have hle := digitsAt_mono (placesKept x) h
        rw [heq] at hy
        exact absurd (hy.resolve_left hne) (not_lt.mpr (hdigits ▸ hle))
    · rw [hyeq, heq]
      exact roundedMagnitude_le (heq ▸ hy)

theorem roundedMagnitude_eq_self (hm : m < mantissaBound) (hk : k ≤ maxScale)
    (h : x = m / 10 ^ k) : roundedMagnitude x = x := by
  have hm' : (m : ℚ) < mantissaBound := by exact_mod_cast hm
  have hmul : x * 10 ^ k = m := by rw [h]; field_simp
  have hle : k ≤ placesKept x := le_placesKept hk (hmul ▸ hm')
  obtain ⟨j, hj⟩ := Nat.exists_eq_add_of_le hle
  have hunits : x * 10 ^ placesKept x = ((m * 10 ^ j : ℤ) : ℚ) := by
    rw [hj, pow_add, ← mul_assoc, hmul]
    push_cast
    rfl
  have hor : placesKept x = 0 ∨ digitsAt (placesKept x) x < mantissaBound := by
    refine or_iff_not_imp_left.mpr fun hne => ?_
    have hlt := mul_placesKept_lt_of_ne_zero hne
    rw [hunits] at hlt
    rw [digitsAt_eq_of_mul hunits]
    exact_mod_cast hlt
  rw [roundedMagnitude, if_pos hor, roundedAt_eq_self hunits]

/-! ### Signs -/

theorem roundedMagnitude_zero : roundedMagnitude 0 = 0 :=
  roundedMagnitude_eq_self (m := 0) (k := 0) (by decide) (by decide) (by simp)

theorem rounded_neg (x : ℚ) : rounded (-x) = -rounded x := by
  rcases lt_trichotomy x 0 with h | rfl | h
  · rw [rounded, rounded, if_pos (by linarith), if_neg (by linarith), neg_neg]
  · simp [rounded, roundedMagnitude_zero]
  · rw [rounded, rounded, if_neg (by linarith), if_pos h.le, neg_neg]

/-- **Rounding is monotone.** -/
theorem rounded_mono : Monotone rounded :=
  monotone_of_odd_of_monotoneOn_nonneg rounded_neg fun x hx y hy h => by
    rw [rounded, rounded, if_pos (Set.mem_Ici.mp hx), if_pos (Set.mem_Ici.mp hy)]
    exact roundedMagnitude_mono h

/-- **Representable numbers** stay as they are. -/
theorem IsRepresentable.rounded_eq (h : IsRepresentable x) : rounded x = x := by
  obtain ⟨m, k, hm, hk, habs⟩ := h
  rcases le_total 0 x with hx | hx
  · rw [abs_of_nonneg hx] at habs
    rw [rounded, if_pos hx, roundedMagnitude_eq_self hm hk habs]
  · rw [abs_of_nonpos hx] at habs
    rw [← neg_neg x, rounded_neg, rounded, if_pos (by linarith),
      roundedMagnitude_eq_self hm hk habs]

end MarkupGrammar.Decimal
