import MarkupGrammar.Proofs.Outcome
import MarkupGrammar.Proofs.Text.Numeral
import MarkupGrammar.Proofs.Value.Decimal
import MarkupGrammar.SimpleType.Builtin
import Mathlib.Data.List.TakeWhile

/-! # Literals of decimal numbers

A literal denotes a number by its sign, its digits and its point. What it is read as is left to a
reader of digits; the literal is only prepared for it (`Decimal.prepared_eq`), and the sign is put
to what comes back. All that is assumed of the reader is that it rounds the number that the digits
denote (`Decimal.Reader.Rounds`).

The bounded reader keeps what it can of the number: as soon as the digits stop to fit, they are
rounded, and what comes after the next place does not count any more
(`Decimal.Stops.isReading_round`). By induction on the digits that are left, what is read is the
number of all digits, rounded, however they are written (`Decimal.isReading_readDigits`); so it is a
reader that rounds (`Decimal.rounds_boundedReader`).

So the values of two literals are equal if they denote the same number, but not only then: numbers
that are rounded to the same one have the same value, too (`Builtin.decimal_values`). -/

namespace MarkupGrammar

namespace Decimal

open Text

variable {s : List Char} {c : Char} {m k : ℕ} {x : ℚ}

/-! ## The number that a literal denotes -/

/-- The whole number with the given digits. -/
def wholeNumber (s : List Char) : ℕ := s.foldl (fun n c => n * 10 + (c.toNat - 48)) 0

/-- The digits before the point. -/
def wholePart (s : List Char) : List Char := s.takeWhile (· != '.')

/-- The digits after the point. -/
def placesPart (s : List Char) : List Char := (s.dropWhile (· != '.')).tail

/-- The fraction with the given places. -/
def fraction (s : List Char) : ℚ := wholeNumber s / 10 ^ s.length

/-- The number that digits with at most one point among them denote. -/
def magnitude (s : List Char) : ℚ := wholeNumber (wholePart s) + fraction (placesPart s)

/-- The number that a literal denotes. -/
def denoted (s : List Char) : ℚ :=
  if s.head? == some '-' then -magnitude (dropSign s) else magnitude (dropSign s)

theorem foldl_digits (n : ℕ) (s : List Char) :
    s.foldl (fun n c => n * 10 + (c.toNat - 48)) n = n * 10 ^ s.length + wholeNumber s := by
  induction s generalizing n with
  | nil => simp [wholeNumber]
  | cons c s ih =>
    rw [wholeNumber, List.foldl_cons, List.foldl_cons, ih, ih (0 * 10 + _), List.length_cons,
      pow_succ]
    ring

theorem wholeNumber_cons (c : Char) (s : List Char) :
    wholeNumber (c :: s) = (c.toNat - 48) * 10 ^ s.length + wholeNumber s := by
  rw [wholeNumber, List.foldl_cons, foldl_digits]
  simp

/-! ## Digits -/

theorem digit_le (h : c.isDigit) : c.toNat - 48 ≤ 9 := by
  have hdigit : 48 ≤ c.toNat ∧ c.toNat ≤ 57 := Char.isDigit_iff_toNat.mp h
  omega

theorem wholeNumber_lt (h : s.all Char.isDigit) : wholeNumber s < 10 ^ s.length := by
  induction s with
  | nil => simp [wholeNumber]
  | cons c s ih =>
    rw [List.all_cons, Bool.and_eq_true] at h
    have hs := ih h.2
    have hc : (c.toNat - 48) * 10 ^ s.length ≤ 9 * 10 ^ s.length :=
      Nat.mul_le_mul_right _ (digit_le h.1)
    rw [wholeNumber_cons, List.length_cons, pow_succ]
    omega

theorem fraction_nonneg (s : List Char) : 0 ≤ fraction s := by
  unfold fraction
  positivity

theorem magnitude_nonneg (s : List Char) : 0 ≤ magnitude s :=
  add_nonneg (by positivity) (fraction_nonneg _)

theorem fraction_lt_one (h : s.all Char.isDigit) : fraction s < 1 := by
  have hlt : (wholeNumber s : ℚ) < 10 ^ s.length := by exact_mod_cast wholeNumber_lt h
  exact (div_lt_one (by positivity)).mpr hlt

theorem fraction_cons (c : Char) (s : List Char) :
    fraction (c :: s) = (((c.toNat - 48 : ℕ) : ℚ) + fraction s) / 10 := by
  rw [fraction, wholeNumber_cons, fraction, List.length_cons, pow_succ]
  push_cast
  field_simp

/-! ## Reading -/

/-- What reading has to give for a number: its digits, rounded, or a fault if they are too many. -/
def IsReading (x : ℚ) : Except Fault (ℕ × ℕ) → Prop
  | .ok (m, k) => x + 1 / 2 < mantissaBound ∧ m < mantissaBound ∧ k ≤ maxScale ∧
      (m : ℚ) / 10 ^ k = roundedMagnitude x
  | .error _ => (mantissaBound : ℚ) ≤ x + 1 / 2

/-- A number of which `k` places fit, and no more. -/
structure Stops (x : ℚ) (m k : ℕ) (next : ℚ) : Prop where
  mantissa_lt : m < mantissaBound
  scale_le : k ≤ maxScale
  mul_eq : x * 10 ^ k = m + next
  next_nonneg : 0 ≤ next
  next_lt : next < 1
  /-- One more place does not fit. -/
  full : k = maxScale ∨ (mantissaBound : ℚ) ≤ (m + next) * 10

namespace Stops

variable {next : ℚ} (h : Stops x m k next)

include h

theorem nonneg : 0 ≤ x := by
  have hmul : 0 ≤ x * 10 ^ k := by
    rw [h.mul_eq]
    exact add_nonneg (by positivity) h.next_nonneg
  exact nonneg_of_mul_nonneg_left hmul (by positivity)

theorem succ_le : (m : ℚ) + 1 ≤ mantissaBound := by exact_mod_cast h.mantissa_lt

theorem placesKept_eq : placesKept x = k := by
  have hlt : x * 10 ^ k < mantissaBound := by
    rw [h.mul_eq]
    linarith [h.next_lt, h.succ_le]
  refine Decimal.placesKept_eq h.nonneg h.scale_le hlt (h.full.imp_right fun hfull => ?_)
  rwa [pow_succ, ← mul_assoc, h.mul_eq]

theorem le_mul : x ≤ m + next := by
  have hpow : (1 : ℚ) ≤ 10 ^ k := one_le_pow₀ (by norm_num)
  rw [← h.mul_eq]
  exact le_mul_of_one_le_right h.nonneg hpow

theorem digitsAt_eq : digitsAt k x = if next < 1 / 2 then (m : ℤ) else m + 1 := by
  rw [digitsAt, h.mul_eq, Int.floor_eq_iff]
  have hnonneg := h.next_nonneg
  have hlt := h.next_lt
  split <;> push_cast <;> constructor <;> linarith

/-- The number is rounded once, if the rounded digits fit. -/
theorem roundedMagnitude_eq (hfits : digitsAt k x < mantissaBound) :
    roundedMagnitude x = digitsAt k x / 10 ^ k := by
  rw [roundedMagnitude, h.placesKept_eq, if_pos (.inr hfits), roundedAt]

theorem roundedMagnitude_eq_of_full (hk : k ≠ 0) (hfull : digitsAt k x = mantissaBound) :
    roundedMagnitude x = (mantissaBound + 4) / 10 ^ k := by
  rcases roundedMagnitude_cases x with ⟨hor, -⟩ | ⟨-, -, heq⟩
  · rw [h.placesKept_eq, hfull] at hor
    exact absurd hor (by simp [hk])
  · rwa [h.placesKept_eq] at heq

/-- **Rounding at the place that does not fit.** -/
theorem isReading_round {digit : ℕ} (hdigit : digit < 5 ↔ next < 1 / 2) :
    IsReading x (round m k digit) := by
  have hle := h.le_mul
  have hsucc := h.succ_le
  have hlt := h.next_lt
  have hdigits := h.digitsAt_eq
  rw [round]
  by_cases hfive : digit < 5
  · have hhalf := hdigit.mp hfive
    rw [if_pos hhalf] at hdigits
    have hrounded := h.roundedMagnitude_eq (by rw [hdigits]; exact_mod_cast h.mantissa_lt)
    rw [if_pos hfive]
    refine ⟨by linarith, h.mantissa_lt, h.scale_le, ?_⟩
    rw [hrounded, hdigits]
    simp
  · have hhalf := mt hdigit.mpr hfive
    rw [if_neg hhalf] at hdigits
    rw [if_neg hfive]
    by_cases hfits : m + 1 < mantissaBound
    · have hfits' : (m : ℚ) + 1 + 1 ≤ mantissaBound := by exact_mod_cast hfits
      have hrounded := h.roundedMagnitude_eq (by rw [hdigits]; exact_mod_cast hfits)
      rw [if_pos hfits]
      refine ⟨by linarith, hfits, h.scale_le, ?_⟩
      rw [hrounded, hdigits]
      push_cast
      rfl
    · obtain hm : m + 1 = mantissaBound := by have := h.mantissa_lt; omega
      have hm' : (m : ℚ) + 1 = mantissaBound := by exact_mod_cast hm
      rw [if_neg hfits]
      split
      · rename_i hk
        have hx := h.mul_eq
        rw [hk, pow_zero, mul_one] at hx
        change (mantissaBound : ℚ) ≤ x + 1 / 2
        linarith
      · rename_i hk
        have hrounded := h.roundedMagnitude_eq_of_full hk (by rw [hdigits]; exact_mod_cast hm)
        obtain ⟨j, rfl⟩ := Nat.exists_eq_succ_of_ne_zero hk
        have hbound : (1 : ℚ) ≤ mantissaBound := by exact_mod_cast Nat.succ_le_of_lt (by decide)
        have hten : x * 10 ≤ m + next := by
          have hpow : (10 : ℚ) ≤ 10 ^ (j + 1) := le_self_pow₀ (by norm_num) (by omega)
          rw [← h.mul_eq]
          exact mul_le_mul_of_nonneg_left hpow h.nonneg
        have hdiv : (((m + 1 + 4) / 10 : ℕ) : ℚ) * 10 = mantissaBound + 4 := by
          have hnat : (mantissaBound + 4) / 10 * 10 = mantissaBound + 4 := by decide
          rw [hm]
          exact_mod_cast hnat
        refine ⟨by linarith, ?_, (Nat.le_succ j).trans h.scale_le, ?_⟩
        · rw [hm]
          decide
        · rw [hrounded, ← hdiv, pow_succ]
          simp only [Nat.succ_sub_one]
          field_simp

end Stops

theorem isReading_readPlaces (hm : m < mantissaBound) (hk : k ≤ maxScale)
    (hs : s.all Char.isDigit) : IsReading ((m + fraction s) / 10 ^ k) (readPlaces m k s) := by
  induction s generalizing m k with
  | nil =>
    have hm' : (m : ℚ) + 1 ≤ mantissaBound := by exact_mod_cast hm
    have hx : ((m : ℚ) + fraction []) / 10 ^ k = m / 10 ^ k := by simp [fraction, wholeNumber]
    have hpow : (1 : ℚ) ≤ 10 ^ k := one_le_pow₀ (by norm_num)
    have hle : (m : ℚ) / 10 ^ k ≤ m := div_le_self (by positivity) hpow
    rw [hx, readPlaces]
    exact ⟨by linarith, hm, hk, (roundedMagnitude_eq_self hm hk rfl).symm⟩
  | cons c s ih =>
    rw [List.all_cons, Bool.and_eq_true] at hs
    obtain ⟨hc, hs⟩ := hs
    rw [readPlaces, digitValue?_ten, if_pos hc]
    dsimp only
    rw [fraction_cons]
    split
    · rename_i hstop
      have hc' := digit_le hc
      have hdigit : ((c.toNat - 48 : ℕ) : ℚ) ≤ 9 := by exact_mod_cast hc'
      have hnonneg := fraction_nonneg s
      have hlt := fraction_lt_one hs
      have hstops : Stops ((m + (((c.toNat - 48 : ℕ) : ℚ) + fraction s) / 10) / 10 ^ k) m k
          ((((c.toNat - 48 : ℕ) : ℚ) + fraction s) / 10) := by
        refine ⟨hm, hk, by field_simp, by positivity, by linarith, hstop.imp (le_antisymm hk) ?_⟩
        intro hfull
        have hfull' : (mantissaBound : ℚ) ≤ m * 10 + (c.toNat - 48 : ℕ) := by exact_mod_cast hfull
        linarith
      refine hstops.isReading_round ⟨fun hfive => ?_, fun hhalf => ?_⟩
      · have hfour : ((c.toNat - 48 : ℕ) : ℚ) ≤ 4 := by exact_mod_cast Nat.lt_succ_iff.mp hfive
        linarith
      · have hfive : ((c.toNat - 48 : ℕ) : ℚ) < 5 := by linarith
        exact_mod_cast hfive
    · rename_i hfits
      rw [not_or, not_le, not_le] at hfits
      have hx : ((m : ℚ) + (((c.toNat - 48 : ℕ) : ℚ) + fraction s) / 10) / 10 ^ k =
          ((m * 10 + (c.toNat - 48) : ℕ) + fraction s) / 10 ^ (k + 1) := by
        rw [pow_succ]
        push_cast
        field_simp
        ring
      rw [hx]
      exact ih hfits.2 hfits.1 hs

theorem isReading_readDigits (hm : m < mantissaBound) (hwhole : (wholePart s).all Char.isDigit)
    (hplaces : (placesPart s).all Char.isDigit) :
    IsReading (m * 10 ^ (wholePart s).length + magnitude s) (readDigits m s) := by
  induction s generalizing m with
  | nil =>
    have hm' : (m : ℚ) + 1 ≤ mantissaBound := by exact_mod_cast hm
    have hx : (m : ℚ) * 10 ^ (wholePart []).length + magnitude [] = m := by
      simp [magnitude, wholePart, placesPart, wholeNumber, fraction]
    rw [hx, readDigits]
    refine ⟨by linarith, hm, Nat.zero_le _, ?_⟩
    rw [roundedMagnitude_eq_self hm (Nat.zero_le maxScale) (by simp)]
    simp
  | cons c s ih =>
    rw [readDigits]
    split
    · rename_i hc
      have hx : (m : ℚ) * 10 ^ (wholePart (c :: s)).length + magnitude (c :: s) =
          (m + fraction s) / 10 ^ 0 := by
        simp [hc, magnitude, wholePart, placesPart, wholeNumber]
      rw [hx]
      exact isReading_readPlaces hm (Nat.zero_le _) (by simpa [hc, placesPart] using hplaces)
    · rename_i hc
      have hpart : wholePart (c :: s) = c :: wholePart s := by simp [wholePart, hc]
      have hrest : placesPart (c :: s) = placesPart s := by simp [placesPart, hc]
      rw [hpart, List.all_cons, Bool.and_eq_true] at hwhole
      rw [hrest] at hplaces
      have hx : (m : ℚ) * 10 ^ (wholePart (c :: s)).length + magnitude (c :: s) =
          (m * 10 + (c.toNat - 48) : ℕ) * 10 ^ (wholePart s).length + magnitude s := by
        rw [magnitude, magnitude, hpart, hrest, wholeNumber_cons, List.length_cons, pow_succ]
        push_cast
        ring
      rw [digitValue?_ten, if_pos hwhole.1, hx]
      dsimp only
      split
      · rename_i hfull
        have hfull' : (mantissaBound : ℚ) ≤ (m * 10 + (c.toNat - 48) : ℕ) := by exact_mod_cast hfull
        have hpow : (1 : ℚ) ≤ 10 ^ (wholePart s).length := one_le_pow₀ (by norm_num)
        have hle := le_mul_of_one_le_right (Nat.cast_nonneg (m * 10 + (c.toNat - 48))) hpow
        have hnonneg := magnitude_nonneg s
        change (mantissaBound : ℚ) ≤ _ + 1 / 2
        linarith
      · rename_i hfits
        exact ih (not_le.mp hfits) hwhole.2 hplaces

/-- What is read has no digits of other scripts. -/
theorem isDigit_of_readPlaces {r : ℕ × ℕ} (h : readPlaces m k s = .ok r) : s.all Char.isDigit := by
  induction s generalizing m k with
  | nil => rfl
  | cons c s ih =>
    rw [readPlaces, digitValue?_ten] at h
    rw [List.all_cons, Bool.and_eq_true]
    by_cases hc : c.isDigit
    · rw [if_pos hc] at h
      dsimp only at h
      split at h
      · split at h
        · rename_i hs
          exact ⟨hc, hs⟩
        · exact nomatch h
      · exact ⟨hc, ih h⟩
    · rw [if_neg hc] at h
      exact nomatch h

theorem isDigit_of_readDigits {r : ℕ × ℕ} (h : readDigits m s = .ok r) :
    (wholePart s).all Char.isDigit ∧ (placesPart s).all Char.isDigit := by
  induction s generalizing m with
  | nil => exact ⟨rfl, rfl⟩
  | cons c s ih =>
    rw [readDigits] at h
    split at h
    · rename_i hc
      refine ⟨by simp [wholePart, hc], ?_⟩
      simpa [placesPart, hc] using isDigit_of_readPlaces h
    · rename_i hc
      have hpart : wholePart (c :: s) = c :: wholePart s := by simp [wholePart, hc]
      have hrest : placesPart (c :: s) = placesPart s := by simp [placesPart, hc]
      rw [digitValue?_ten] at h
      by_cases hdigit : c.isDigit
      · rw [if_pos hdigit] at h
        dsimp only at h
        split at h
        · exact nomatch h
        · rw [hpart, hrest, List.all_cons, Bool.and_eq_true]
          exact ⟨⟨hdigit, (ih h).1⟩, (ih h).2⟩
      · rw [if_neg hdigit] at h
        exact nomatch h

/-! ## Readers -/

/-- Digits with places behind a point, or without any. -/
def numeral (whole places : List Char) : List Char :=
  if places = [] then whole else whole ++ '.' :: places

/-- What is assumed of a reader: digits are read as their number, rounded if there are too many
places, or refused if the whole number does not fit; and so are digits of other scripts. -/
structure Reader.Rounds (reader : Reader) : Prop where
  isReading (whole places : List Char) : whole ≠ [] → whole.all Char.isDigit →
    places.all Char.isDigit →
    IsReading (wholeNumber whole + fraction places) (reader (numeral whole places))
  refuses (whole places : List Char) : whole ≠ [] → whole.all Text.isDigit →
    places.all Text.isDigit → ¬ (whole.all Char.isDigit ∧ places.all Char.isDigit) →
    ∃ e, reader (numeral whole places) = .error e

section Parts
variable {whole places : List Char}

theorem all_isDigit_of_ascii (h : s.all Char.isDigit) : s.all Text.isDigit := by
  rw [List.all_eq_true] at h ⊢
  intro c hc
  have hdigit : 48 ≤ c.toNat ∧ c.toNat ≤ 57 := Char.isDigit_iff_toNat.mp (h c hc)
  rw [Text.isDigit, if_pos (by omega)]
  exact h c hc

theorem ne_point_of_isDigit (h : Text.isDigit c) : c ≠ '.' := by
  rintro rfl
  exact absurd h (by decide)

theorem wholePart_append (hwhole : whole.all Text.isDigit) :
    wholePart (whole ++ '.' :: places) = whole := by
  rw [wholePart, List.takeWhile_append_of_pos fun c hc =>
    bne_iff_ne.mpr (ne_point_of_isDigit (List.all_eq_true.mp hwhole c hc))]
  simp

theorem placesPart_append (hwhole : whole.all Text.isDigit) :
    placesPart (whole ++ '.' :: places) = places := by
  rw [placesPart, List.dropWhile_append_of_pos fun c hc =>
    bne_iff_ne.mpr (ne_point_of_isDigit (List.all_eq_true.mp hwhole c hc))]
  simp

theorem wholePart_eq_self (hwhole : whole.all Text.isDigit) : wholePart whole = whole :=
  List.takeWhile_eq_self_iff.mpr fun c hc =>
    bne_iff_ne.mpr (ne_point_of_isDigit (List.all_eq_true.mp hwhole c hc))

theorem placesPart_eq_nil (hwhole : whole.all Text.isDigit) : placesPart whole = [] := by
  have hdrop : whole.dropWhile (· != '.') = [] := List.dropWhile_eq_nil_iff.mpr fun c hc =>
    bne_iff_ne.mpr (ne_point_of_isDigit (List.all_eq_true.mp hwhole c hc))
  rw [placesPart, hdrop, List.tail_nil]

theorem parts_numeral (hwhole : whole.all Text.isDigit) (places : List Char) :
    wholePart (numeral whole places) = whole ∧ placesPart (numeral whole places) = places := by
  rw [numeral]
  split
  · rename_i h
    exact ⟨wholePart_eq_self hwhole, h ▸ placesPart_eq_nil hwhole⟩
  · exact ⟨wholePart_append hwhole, placesPart_append hwhole⟩

end Parts

/-- **The bounded reader rounds.** -/
theorem rounds_boundedReader : boundedReader.Rounds where
  isReading whole places _ hwhole hplaces := by
    obtain ⟨hw, hp⟩ := parts_numeral (all_isDigit_of_ascii hwhole) places
    have hreading := isReading_readDigits (m := 0) (s := numeral whole places) (by decide)
      (hw.symm ▸ hwhole) (hp.symm ▸ hplaces)
    rwa [Nat.cast_zero, zero_mul, zero_add, magnitude, hw, hp] at hreading
  refuses whole places _ hwhole _ hno := by
    obtain ⟨hw, hp⟩ := parts_numeral hwhole places
    cases hread : boundedReader (numeral whole places) with
    | error e => exact ⟨e, rfl⟩
    | ok r =>
      have hdigits := isDigit_of_readDigits hread
      rw [hw, hp] at hdigits
      exact absurd hdigits hno

/-! ## Preparing literals -/

/-- Digits in front of a point, a zero if there are none. -/
def leading (whole : List Char) : List Char := if whole = [] then ['0'] else whole

theorem leading_ne_nil (whole : List Char) : leading whole ≠ [] := by
  rw [leading]
  split
  · exact List.cons_ne_nil _ _
  · assumption

theorem all_leading {p : Char → Bool} (hzero : p '0') (whole : List Char) :
    (leading whole).all p = whole.all p := by
  rw [leading]
  split
  · rename_i h
    simp [h, hzero]
  · rfl

theorem wholeNumber_leading (whole : List Char) :
    wholeNumber (leading whole) = wholeNumber whole := by
  rw [leading]
  split
  · rename_i h
    rw [h]
    rfl
  · rfl

theorem dropPoints_concat (h : c ≠ '.') : dropPoints (s ++ [c]) = s ++ [c] := by
  simp [dropPoints, h]

theorem dropPoints_point (s : List Char) : dropPoints (s ++ ['.']) = dropPoints s := by
  simp [dropPoints]

theorem dropPoints_append {t : List Char} (h : t.all Text.isDigit) (hne : t ≠ []) :
    dropPoints (s ++ t) = s ++ t := by
  obtain ⟨t, c, rfl⟩ := (List.eq_nil_or_concat t).resolve_left hne
  have hc : c ≠ '.' := ne_point_of_isDigit (List.all_eq_true.mp h c (by simp))
  rw [List.concat_eq_append, ← List.append_assoc, dropPoints_concat hc]

theorem addZero_append {t : List Char} (h : s.all Text.isDigit) (hne : s ≠ []) :
    addZero (s ++ t) = s ++ t := by
  obtain ⟨c, s, rfl⟩ := List.exists_cons_of_ne_nil hne
  have hc : c ≠ '.' := ne_point_of_isDigit (List.all_eq_true.mp h c (by simp))
  rw [List.cons_append, addZero]
  exact fun _ heq => hc (List.cons.inj heq).1

/-- Digits alone are left as they are. -/
theorem addZero_dropPoints (h : s.all Text.isDigit) (hne : s ≠ []) :
    addZero (dropPoints s) = s := by
  have hdrop := dropPoints_append (s := []) h hne
  have hadd := addZero_append (t := []) h hne
  rw [List.nil_append] at hdrop
  rw [List.append_nil] at hadd
  rw [hdrop, hadd]

/-- The form of an unsigned number: digits, or digits around a point, not on both sides none. -/
theorem exists_of_isUnsignedForm (h : isUnsignedForm s) : ∃ whole places : List Char,
    whole.all Text.isDigit ∧ places.all Text.isDigit ∧
      ((s = whole ∧ places = [] ∧ whole ≠ []) ∨
        (s = whole ++ '.' :: places ∧ (whole ≠ [] ∨ places ≠ []))) := by
  have hsplit := List.takeWhile_append_dropWhile (p := Text.isDigit) (l := s)
  have hwhole : (s.takeWhile Text.isDigit).all Text.isDigit := List.all_takeWhile
  unfold isUnsignedForm at h
  dsimp only at h
  cases hrest : s.dropWhile Text.isDigit with
  | nil =>
    rw [hrest] at h hsplit
    rw [List.append_nil] at hsplit
    exact ⟨_, [], hwhole, rfl, .inl ⟨hsplit.symm, rfl, by simpa using h⟩⟩
  | cons c places =>
    rw [hrest] at h hsplit
    simp only [Bool.and_eq_true, Bool.or_eq_true, beq_iff_eq, Bool.not_eq_true',
      List.isEmpty_eq_false_iff] at h
    obtain ⟨⟨rfl, hplaces⟩, hsome⟩ := h
    exact ⟨_, places, hwhole, hplaces, .inr ⟨hsplit.symm, hsome⟩⟩

/-- **The digits of an unsigned number are prepared** with a digit in front of the point, and
without a point that has no places behind it. -/
theorem prepared_eq (h : isUnsignedForm s) :
    addZero (dropPoints s) = numeral (leading (wholePart s)) (placesPart s) ∧
      (wholePart s).all Text.isDigit ∧ (placesPart s).all Text.isDigit := by
  obtain ⟨whole, places, hwhole, hplaces, ⟨rfl, rfl, hne⟩ | ⟨rfl, hsome⟩⟩ :=
    exists_of_isUnsignedForm h
  · rw [addZero_dropPoints hwhole hne, wholePart_eq_self hwhole, placesPart_eq_nil hwhole, leading,
      if_neg hne]
    exact ⟨rfl, hwhole, hplaces⟩
  · rw [wholePart_append hwhole, placesPart_append hwhole]
    refine ⟨?_, hwhole, hplaces⟩
    rw [numeral, leading]
    by_cases hp : places = []
    · subst hp
      have hne : whole ≠ [] := hsome.resolve_right (absurd rfl)
      rw [dropPoints_point, addZero_dropPoints hwhole hne, if_pos rfl, if_neg hne]
    · have hdrop := dropPoints_append (s := whole ++ ['.']) hplaces hp
      rw [List.append_assoc, List.singleton_append] at hdrop
      rw [hdrop, if_neg hp]
      by_cases hne : whole = []
      · rw [if_pos hne, hne]
        rfl
      · rw [if_neg hne, addZero_append hwhole hne]

/-- The sign of a literal is taken off. -/
theorem splitMinus_dropPlus (h : isForm s) :
    splitMinus (dropPlus s) = (s.head? == some '-', dropSign s) := by
  unfold isForm dropSign at h
  split at h
  · rename_i s
    -- no other sign comes behind a plus
    have hminus : ∀ r, s ≠ '-' :: r := by
      rintro r rfl
      exact absurd h (by simp [isUnsignedForm, show Text.isDigit '-' = false from by decide])
    change splitMinus s = (false, s)
    unfold splitMinus
    split
    · exact absurd rfl (hminus _)
    · rfl
  · rfl
  · rename_i hplus hminus
    have hdrop : dropPlus s = s := by
      unfold dropPlus
      split
      · exact absurd rfl (hplus _)
      · rfl
    have hsign : dropSign s = s := by
      unfold dropSign
      split
      · exact absurd rfl (hplus _)
      · exact absurd rfl (hminus _)
      · rfl
    have hhead : (s.head? == some '-') = false := by
      rw [beq_eq_false_iff_ne]
      intro hhead
      obtain ⟨r, rfl⟩ := List.head?_eq_some_iff.mp hhead
      exact hminus r rfl
    rw [hdrop, hsign, hhead]
    unfold splitMinus
    split
    · exact absurd rfl (hminus _)
    · rfl

variable {reader : Reader}

/-- What a literal is read as. -/
theorem read_eq (h : isForm s) : read reader s =
    (reader (numeral (leading (wholePart (dropSign s))) (placesPart (dropSign s)))).map
      fun (mantissa, scale) => ofDigits (s.head? == some '-') mantissa scale := by
  rw [read, splitMinus_dropPlus h, ← (prepared_eq h).1]

/-! ## Literals -/

theorem rounded_denoted (s : List Char) : rounded (denoted s) =
    if s.head? == some '-' then -roundedMagnitude (magnitude (dropSign s))
    else roundedMagnitude (magnitude (dropSign s)) := by
  have hrounded : rounded (magnitude (dropSign s)) = roundedMagnitude (magnitude (dropSign s)) :=
    if_pos (magnitude_nonneg _)
  rw [denoted]
  split
  · rw [rounded_neg, hrounded]
  · exact hrounded

theorem abs_denoted (s : List Char) : |denoted s| = magnitude (dropSign s) := by
  rw [denoted]
  split
  · rw [abs_neg, abs_of_nonneg (magnitude_nonneg _)]
  · rw [abs_of_nonneg (magnitude_nonneg _)]

/-- The form of a decimal number, without digits of other scripts. -/
structure IsLiteral (s : List Char) : Prop where
  isForm : isForm s
  whole : (wholePart (dropSign s)).all Char.isDigit
  places : (placesPart (dropSign s)).all Char.isDigit

section Rounding
variable (hreader : reader.Rounds)

include hreader

/-- Digits are read as the number that they denote. -/
theorem IsLiteral.isReading (h : IsLiteral s) : IsReading (magnitude (dropSign s))
    (reader (numeral (leading (wholePart (dropSign s))) (placesPart (dropSign s)))) := by
  have hreading := hreader.isReading _ (placesPart (dropSign s)) (leading_ne_nil _)
    ((all_leading rfl _).trans h.whole) h.places
  rwa [wholeNumber_leading] at hreading

/-- What is read has no digits of other scripts. -/
theorem isLiteral_of_read (hform : isForm s) {r : ℕ × ℕ}
    (h : reader (numeral (leading (wholePart (dropSign s))) (placesPart (dropSign s))) = .ok r) :
    IsLiteral s := by
  obtain ⟨-, hwhole, hplaces⟩ := prepared_eq hform
  by_contra hno
  have hrefused := hreader.refuses _ _ (leading_ne_nil _) ((all_leading (by decide) _).trans hwhole)
    hplaces fun ⟨hw, hp⟩ => hno ⟨hform, (all_leading rfl _).symm.trans hw, hp⟩
  obtain ⟨e, he⟩ := hrefused
  exact nomatch h.symm.trans he

/-- **What a literal is read as** is what it denotes, rounded. -/
theorem of_read_eq_ok (hform : isForm s) {d : Decimal} (h : read reader s = .ok d) :
    d.toRat = rounded (denoted s) ∧ IsRepresentable d.toRat := by
  rw [read_eq hform] at h
  obtain ⟨⟨m, k⟩, hread, rfl⟩ := of_map_eq_ok h
  have hreading := (isLiteral_of_read hreader hform hread).isReading hreader
  rw [hread] at hreading
  obtain ⟨-, hm, hk, heq⟩ := hreading
  have htoRat := toRat_ofDigits (s.head? == some '-') m k
  refine ⟨?_, m, k, hm, hk, ?_⟩
  · rw [htoRat, rounded_denoted, heq]
  · have hnonneg : (0 : ℚ) ≤ m / 10 ^ k := by positivity
    rw [htoRat]
    split
    · rw [abs_neg, abs_of_nonneg hnonneg]
    · rw [abs_of_nonneg hnonneg]

/-- **Which literals are read**: those of numbers that fit when they are rounded to whole ones. -/
theorem exists_read_iff (hform : isForm s) : (∃ d, read reader s = .ok d) ↔
    IsLiteral s ∧ |denoted s| + 1 / 2 < mantissaBound := by
  rw [abs_denoted, read_eq hform]
  constructor
  · rintro ⟨d, h⟩
    obtain ⟨⟨m, k⟩, hread, -⟩ := of_map_eq_ok h
    have hliteral := isLiteral_of_read hreader hform hread
    have hreading := hliteral.isReading hreader
    rw [hread] at hreading
    exact ⟨hliteral, hreading.1⟩
  · rintro ⟨hliteral, hlt⟩
    have hreading := hliteral.isReading hreader
    cases hread :
        reader (numeral (leading (wholePart (dropSign s))) (placesPart (dropSign s))) with
    | ok r => exact ⟨_, rfl⟩
    | error e =>
      rw [hread] at hreading
      exact absurd hlt (not_lt.mpr hreading)

end Rounding

end Decimal

namespace Builtin

open Decimal

variable {b : Builtin} {ctx ctx' : ValueContext} {s s' : String} {v v' : Value}
  {reader : Decimal.Reader}

/-- The number that a literal denotes, without regard to white space around it. -/
def numberOf (s : String) : ℚ := denoted (Spacing.collapse.normalize s).toList

theorem eq_of_find?_decimal (hb : find? "decimal" = some b) :
    b = atomic "decimal" "anySimpleType" .decimal := by
  have hfind : find? "decimal" = some (atomic "decimal" "anySimpleType" .decimal) := by decide
  exact Option.some.inj (hb.symm.trans hfind)

theorem validate_decimal_eq_ok_iff (hb : find? "decimal" = some b) :
    b.validate ctx s reader = .ok v ↔ ∃ d : Decimal, v = .atom (.decimal d) ∧
      isForm (Spacing.collapse.normalize s).toList ∧
      Decimal.read reader (Spacing.collapse.normalize s).toList = .ok d := by
  obtain rfl := eq_of_find?_decimal hb
  constructor
  · intro h
    obtain ⟨a, ha, rfl⟩ := of_map_eq_ok h
    obtain ⟨d, hd, rfl⟩ := of_map_eq_ok ha
    rw [readDecimal] at hd
    split at hd
    · rename_i hform
      exact ⟨d, rfl, hform, of_mapError_eq_ok hd⟩
    · exact nomatch hd
  · rintro ⟨d, rfl, hform, hd⟩
    change ((readDecimal (Spacing.collapse.normalize s) reader).map Atom.decimal).map Value.atom = _
    rw [readDecimal, if_pos hform, hd]
    rfl

section Rounding
variable (hreader : reader.Rounds)

include hreader

theorem exists_of_validate_decimal (hb : find? "decimal" = some b)
    (h : b.validate ctx s reader = .ok v) : ∃ d : Decimal, v = .atom (.decimal d) ∧
      d.toRat = rounded (numberOf s) ∧ IsRepresentable d.toRat := by
  obtain ⟨d, hv, hform, hd⟩ := (validate_decimal_eq_ok_iff hb).mp h
  exact ⟨d, hv, of_read_eq_ok hreader hform hd⟩

theorem exists_validate_decimal_iff (hb : find? "decimal" = some b) :
    (∃ v, b.validate ctx s reader = .ok v) ↔ IsLiteral (Spacing.collapse.normalize s).toList ∧
      |numberOf s| + 1 / 2 < mantissaBound := by
  constructor
  · rintro ⟨v, h⟩
    obtain ⟨d, -, hform, hd⟩ := (validate_decimal_eq_ok_iff hb).mp h
    exact (exists_read_iff hreader hform).mp ⟨d, hd⟩
  · rintro ⟨hliteral, hlt⟩
    obtain ⟨d, hd⟩ := (exists_read_iff hreader hliteral.isForm).mpr ⟨hliteral, hlt⟩
    exact ⟨_, (validate_decimal_eq_ok_iff hb).mpr ⟨d, rfl, hliteral.isForm, hd⟩⟩

end Rounding

/-- **Values of decimal literals**, whatever reader of digits rounds their numbers. A literal is
accepted if its number still fits when it is rounded to a whole one, and has as its value the
number, rounded: two literals have the same value exactly if their numbers are rounded to the same
one, and they compare as the rounded numbers do. So literals for one number have one value, and
never does a greater number compare as less. Numbers whose digits fit are not rounded, and no
others: for their literals, values are equal exactly if the numbers are, and compare as the numbers
do. -/
theorem decimal_values (hreader : reader.Rounds) (hb : find? "decimal" = some b)
    (hs : b.validate ctx s reader = .ok v) (hs' : b.validate ctx' s' reader = .ok v') :
    (∀ t, (∃ w, b.validate ctx t reader = .ok w) ↔
      IsLiteral (Spacing.collapse.normalize t).toList ∧ |numberOf t| + 1 / 2 < mantissaBound) ∧
    (v = v' ↔ rounded (numberOf s) = rounded (numberOf s')) ∧
    v.compare? v' = some (compare (rounded (numberOf s)) (rounded (numberOf s'))) ∧
    (numberOf s = numberOf s' → v = v') ∧
    (v.compare? v' = some .lt → numberOf s < numberOf s') ∧
    (rounded (numberOf s) = numberOf s ↔ IsRepresentable (numberOf s)) ∧
    (IsRepresentable (numberOf s) → IsRepresentable (numberOf s') →
      (v = v' ↔ numberOf s = numberOf s') ∧
        v.compare? v' = some (compare (numberOf s) (numberOf s'))) := by
  obtain ⟨d, rfl, hd, hfits⟩ := exists_of_validate_decimal hreader hb hs
  obtain ⟨d', rfl, hd', -⟩ := exists_of_validate_decimal hreader hb hs'
  have heq : Value.atom (.decimal d) = .atom (.decimal d') ↔
      rounded (numberOf s) = rounded (numberOf s') := by
    rw [Value.atom.injEq, Atom.decimal.injEq, ← hd, ← hd', toRat_injective.eq_iff]
  have hcompare : (Value.atom (.decimal d)).compare? (.atom (.decimal d')) =
      some (compare (rounded (numberOf s)) (rounded (numberOf s'))) := by
    rw [← hd, ← hd', ← Decimal.compare_eq]
    rfl
  refine ⟨fun t => exists_validate_decimal_iff hreader hb, heq, hcompare,
    fun hnumbers => heq.mpr (congrArg rounded hnumbers), fun hlt => ?_,
    ⟨fun hrounded => ?_, IsRepresentable.rounded_eq⟩, fun hx hx' => ?_⟩
  · rw [hcompare, Option.some.injEq, compare_lt_iff_lt] at hlt
    exact rounded_mono.reflect_lt hlt
  · rwa [hd, hrounded] at hfits
  · rw [heq, hcompare, hx.rounded_eq, hx'.rounded_eq]
    exact ⟨Iff.rfl, rfl⟩

/-- A half, written in two ways. -/
theorem decimal_values_half : ∃ b v v', find? "decimal" = some b ∧
    b.validate {} "+.5" = .ok v ∧ b.validate {} " 0.50" = .ok v' ∧ v = v' := by
  have hhalf : (atomic "decimal" "anySimpleType" .decimal).validate {} "+.5" =
      .ok (.atom (.decimal ⟨5, 1, .inr (by decide)⟩)) := eq_ok_of_toOption (by decide +kernel)
  have hhalf' : (atomic "decimal" "anySimpleType" .decimal).validate {} " 0.50" =
      .ok (.atom (.decimal ⟨5, 1, .inr (by decide)⟩)) := eq_ok_of_toOption (by decide +kernel)
  have hvalues := decimal_values rounds_boundedReader rfl hhalf hhalf'
  exact ⟨_, _, _, rfl, hhalf, hhalf', hvalues.2.2.2.1 (by decide +kernel)⟩

/-- A number with more places than are kept has the value zero. -/
theorem exists_decimal_zero : ∃ b v, find? "decimal" = some b ∧
    b.validate {} "0.00000000000000000000000000001" = .ok v ∧ b.validate {} "0" = .ok v ∧
    v.compare? v = some .eq ∧
    numberOf "0" < numberOf "0.00000000000000000000000000001" := by
  have htiny : (atomic "decimal" "anySimpleType" .decimal).validate {}
      "0.00000000000000000000000000001" = .ok (.atom (.decimal (.ofInt 0))) :=
    eq_ok_of_toOption (by decide +kernel)
  have hzero : (atomic "decimal" "anySimpleType" .decimal).validate {} "0" =
      .ok (.atom (.decimal (.ofInt 0))) := eq_ok_of_toOption (by decide +kernel)
  exact ⟨_, _, rfl, htiny, hzero, by decide, by decide +kernel⟩

end Builtin

end MarkupGrammar
