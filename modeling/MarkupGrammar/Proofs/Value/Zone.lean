import MarkupGrammar.Proofs.Outcome
import MarkupGrammar.Proofs.Text.Cutting
import MarkupGrammar.Proofs.Text.Numeral
import MarkupGrammar.SimpleType.Builtin
import MarkupGrammar.Value.Calendar
import Mathlib.Data.Nat.Notation

/-! # Time zones at the end of dates and times

A zone is a `Z`, or a sign and two fields around a colon. A field is read as a signed numeral of two
places, so it is made up of two digits, or of a sign of its own and a digit
(`Zone.signed?_eq_some_iff`). Dates and times do not end in zones, so a literal has one zone at
most, and what is before it is what is read as a date or time (`Builtin.calendar_values`). The zone
has the usual form, with two digits in each field, exactly if no field has a sign of its own. -/

namespace MarkupGrammar

/-! ## What dates and times are written with

Reading a part of a date or of a time takes a beginning of the text, of a least length and with
characters of a kind (`Takes`). Dates are made up of digits, blanks and signs, times of digits,
blanks, colons and points. -/

namespace Calendar

open Text

variable {p q : Char → Prop} {s rest rest' : List Char} {n m : ℕ}

/-! ## Taking a beginning -/

/-- What is left of the text after at least `n` characters of a kind. -/
def Takes (p : Char → Prop) (n : ℕ) (s rest : List Char) : Prop :=
  ∃ taken, s = taken ++ rest ∧ (∀ c ∈ taken, p c) ∧ n ≤ taken.length

theorem takes_refl (p : Char → Prop) (s : List Char) : Takes p 0 s s :=
  ⟨[], rfl, nofun, le_rfl⟩

theorem Takes.trans (h : Takes p n s rest) (h' : Takes p m rest rest') :
    Takes p (n + m) s rest' := by
  obtain ⟨taken, rfl, hp, hn⟩ := h
  obtain ⟨taken', rfl, hp', hm⟩ := h'
  refine ⟨taken ++ taken', by simp, List.forall_mem_append.mpr ⟨hp, hp'⟩, ?_⟩
  rw [List.length_append]
  omega

theorem Takes.imp (h : Takes p n s rest) (hpq : ∀ c, p c → q c) (hm : m ≤ n) :
    Takes q m s rest := by
  obtain ⟨taken, hs, hp, hn⟩ := h
  exact ⟨taken, hs, fun c hc => hpq c (hp c hc), by omega⟩

theorem takes_dropWhile (f : Char → Bool) (s : List Char) :
    Takes (fun c => f c) 0 s (s.dropWhile f) :=
  ⟨s.takeWhile f, List.takeWhile_append_dropWhile.symm, fun _ => List.mem_takeWhile_imp,
    Nat.zero_le _⟩

theorem takes_readMark {c : Char} (h : readMark c s = .ok rest) (hc : p c) : Takes p 1 s rest := by
  cases s with
  | nil => exact nomatch h
  | cons d s =>
    rw [readMark] at h
    split at h
    · rename_i hd
      obtain rfl := Except.ok.inj h
      refine ⟨[d], rfl, fun e he => ?_, le_rfl⟩
      rwa [List.mem_singleton.mp he, hd]
    · exact nomatch h

/-! ## Numbers -/

/-- The digits that are taken are a beginning of the text. -/
theorem takeDigits_spec (max? : Option ℕ) (s : List Char) :
    s = (takeDigits max? s).1 ++ (takeDigits max? s).2 ∧
      ∀ c ∈ (takeDigits max? s).1, c.isDigit := by
  have hbegins : (takeDigits max? s).1 <+: s.takeWhile Char.isDigit := by
    cases max? with
    | none => exact List.prefix_refl _
    | some max => exact List.take_prefix _ _
  exact ⟨List.prefix_iff_eq_append.mp (hbegins.trans (List.takeWhile_prefix _)) |>.symm,
    fun c hc => List.mem_takeWhile_imp (hbegins.subset hc)⟩

theorem takes_readDigits {max? : Option ℕ} {r : ℕ × List Char} (h : readDigits max? s = .ok r) :
    Takes (fun c => c.isDigit) 1 s r.2 := by
  obtain ⟨hs, hdigits⟩ := takeDigits_spec max? s
  rw [readDigits] at h
  dsimp only at h
  split at h
  · rename_i n hn
    obtain rfl := Except.ok.inj h
    refine ⟨_, hs, hdigits, List.length_pos_of_ne_nil fun hnil => ?_⟩
    rw [hnil] at hn
    exact nomatch hn
  · split at h <;> exact nomatch h

/-- A character of a number with blanks before it. -/
def IsNumberChar (c : Char) : Prop := isBlank c ∨ c.isDigit

theorem takes_number {max? : Option ℕ} {r : ℕ × List Char}
    (h : readDigits max? (dropBlanks s) = .ok r) : Takes IsNumberChar 1 s r.2 := by
  have hblanks := (takes_dropWhile isBlank s).imp (q := IsNumberChar) (fun _ => .inl) le_rfl
  exact hblanks.trans ((takes_readDigits h).imp (fun _ => .inr) le_rfl)

theorem takes_readField {lo hi : ℕ} {r : ℕ × List Char} (h : readField lo hi s = .ok r) :
    Takes IsNumberChar 1 s r.2 := by
  obtain ⟨r', hr', h⟩ := of_bind_eq_ok h
  dsimp only at h
  split at h
  · obtain rfl := Except.ok.inj h
    exact takes_number hr'
  · exact nomatch h

/-! ## Dates -/

/-- A character of a date. -/
def IsDateChar (c : Char) : Prop := IsNumberChar c ∨ c = '-' ∨ c = '+'

theorem takes_readYear {r : ℤ × List Char} (h : readYear s = .ok r) :
    Takes IsDateChar 1 s r.2 := by
  have hblanks := (takes_dropWhile isBlank s).imp (q := IsDateChar) (fun _ hc => .inl (.inl hc))
    le_rfl
  -- the check of the bounds keeps what is left
  have hkeeps {inRange : Prop} [Decidable inRange] {year : ℤ} {rest : List Char}
      (hr : (if inRange then pure (year, rest) else throw Fault.outOfRange :
        Except Fault (ℤ × List Char)) = .ok r) : r.2 = rest := by
    split at hr
    · exact congrArg Prod.snd (Except.ok.inj hr).symm
    · exact nomatch hr
  have hsigned {t : List Char} {c : Char} (hc : c = '-' ∨ c = '+') {r' : ℕ × List Char}
      (hdrop : s.dropWhile isBlank = c :: t) (hr' : readDigits none t = .ok r') :
      Takes IsDateChar 1 s r'.2 := by
    have hsign : Takes IsDateChar 1 (c :: t) t :=
      ⟨[c], rfl, fun d hd => .inr (List.mem_singleton.mp hd ▸ hc), le_rfl⟩
    have hdigits := (takes_readDigits hr').imp (q := IsDateChar) (fun _ hd => .inl (.inr hd)) le_rfl
    rw [hdrop] at hblanks
    exact (hblanks.trans (hsign.trans hdigits)).imp (fun _ => id) (by omega)
  unfold readYear at h
  dsimp only at h
  split at h
  · rename_i t hdrop
    obtain ⟨⟨n, rest⟩, hr', h⟩ := of_bind_eq_ok h
    simp only [pure_bind] at h
    rw [hkeeps h]
    exact hsigned (.inl rfl) hdrop hr'
  · rename_i t hdrop
    obtain ⟨⟨n, rest⟩, hr', h⟩ := of_bind_eq_ok h
    simp only [pure_bind] at h
    rw [hkeeps h]
    exact hsigned (.inr rfl) hdrop hr'
  · obtain ⟨⟨n, rest⟩, hr', h⟩ := of_bind_eq_ok h
    simp only [pure_bind] at h
    rw [hkeeps h]
    exact (takes_number hr').imp (fun _ => .inl) le_rfl

theorem takes_readDateFields {r : Date × List Char} (h : readDateFields s = .ok r) :
    Takes IsDateChar 5 s r.2 := by
  obtain ⟨⟨year, s₁⟩, hyear, h⟩ := of_bind_eq_ok h
  obtain ⟨s₂, hmark, h⟩ := of_bind_eq_ok h
  obtain ⟨⟨month, s₃⟩, hmonth, h⟩ := of_bind_eq_ok h
  obtain ⟨s₄, hmark', h⟩ := of_bind_eq_ok h
  obtain ⟨⟨day, s₅⟩, hday, h⟩ := of_bind_eq_ok h
  obtain rfl := Except.ok.inj h
  have hdash : IsDateChar '-' := .inr (.inl rfl)
  have hfield {s rest : List Char} (h : Takes IsNumberChar 1 s rest) : Takes IsDateChar 1 s rest :=
    h.imp (fun _ => .inl) le_rfl
  exact ((((takes_readYear hyear).trans (takes_readMark hmark hdash)).trans
    (hfield (takes_readField hmonth))).trans (takes_readMark hmark' hdash)).trans
      (hfield (takes_readField hday))

/-! ## Times of day -/

/-- A character of a time of day. -/
def IsTimeChar (c : Char) : Prop := IsNumberChar c ∨ c = ':' ∨ c = '.'

theorem takes_readFraction {r : ℕ × List Char} (h : readFraction s = .ok r) :
    Takes IsTimeChar 0 s r.2 := by
  unfold readFraction at h
  split at h
  · rename_i t
    obtain ⟨r', hr', heq⟩ := of_bind_eq_ok h
    obtain rfl := Except.ok.inj heq
    have hdigit (c : Char) (hc : c.isDigit) : IsTimeChar c := .inl (.inr hc)
    have hpoint : Takes IsTimeChar 1 ('.' :: t) t :=
      ⟨['.'], rfl, fun c hc => .inr (.inr (List.mem_singleton.mp hc)), le_rfl⟩
    have hdigits := (takes_readDigits hr').imp hdigit le_rfl
    have hmore := (takes_dropWhile Char.isDigit r'.2).imp hdigit le_rfl
    exact ((hpoint.trans hdigits).trans hmore).imp (fun _ => id) (by omega)
  · obtain rfl := Except.ok.inj h
    exact takes_refl _ _

theorem takes_readTimeFields {r : TimeOfDay × List Char} (h : readTimeFields s = .ok r) :
    Takes IsTimeChar 5 s r.2 := by
  obtain ⟨⟨hour, s₁⟩, hhour, h⟩ := of_bind_eq_ok h
  obtain ⟨s₂, hmark, h⟩ := of_bind_eq_ok h
  obtain ⟨⟨minute, s₃⟩, hminute, h⟩ := of_bind_eq_ok h
  obtain ⟨s₄, hmark', h⟩ := of_bind_eq_ok h
  obtain ⟨⟨second, s₅⟩, hsecond, h⟩ := of_bind_eq_ok h
  obtain ⟨⟨fraction, s₆⟩, hfraction, h⟩ := of_bind_eq_ok h
  obtain rfl := Except.ok.inj h
  have hcolon : IsTimeChar ':' := .inr (.inl rfl)
  have hfield {s rest : List Char} (h : Takes IsNumberChar 1 s rest) : Takes IsTimeChar 1 s rest :=
    h.imp (fun _ => .inl) le_rfl
  exact (((((hfield (takes_readField hhour)).trans (takes_readMark hmark hcolon)).trans
    (hfield (takes_readField hminute))).trans (takes_readMark hmark' hcolon)).trans
      (hfield (takes_readField hsecond))).trans (takes_readFraction hfraction)

/-! ## Whole texts -/

theorem readEnd_eq_ok_iff : readEnd s = .ok () ↔ s = [] := by
  cases s <;> simp [readEnd]

/-- A date is made up of characters of dates. -/
theorem isDateChar_of_readDate {d : Date} (h : readDate s = .ok d) : ∀ c ∈ s, IsDateChar c := by
  obtain ⟨r, hr, h⟩ := of_bind_eq_ok h
  obtain ⟨⟨⟩, hend, -⟩ := of_bind_eq_ok h
  obtain ⟨taken, rfl, hp, -⟩ := takes_readDateFields hr
  rwa [readEnd_eq_ok_iff.mp hend, List.append_nil]

/-- A time of day is made up of characters of times. -/
theorem isTimeChar_of_readTime {t : TimeOfDay} (h : readTime s = .ok t) :
    ∀ c ∈ s, IsTimeChar c := by
  obtain ⟨r, hr, h⟩ := of_bind_eq_ok h
  obtain ⟨⟨⟩, hend, -⟩ := of_bind_eq_ok h
  obtain ⟨taken, rfl, hp, -⟩ := takes_readTimeFields hr
  rwa [readEnd_eq_ok_iff.mp hend, List.append_nil]

/-- Around the `T`, the characters of a date and at least five characters of a time. -/
theorem exists_parts_of_readDateTime {d : DateTime} (h : readDateTime s = .ok d) :
    ∃ date time, s = date ++ 'T' :: time ∧ (∀ c ∈ date, IsDateChar c) ∧
      (∀ c ∈ time, IsTimeChar c) ∧ 5 ≤ time.length := by
  obtain ⟨⟨date, s₁⟩, hdate, h⟩ := of_bind_eq_ok h
  obtain ⟨s₂, hmark, h⟩ := of_bind_eq_ok h
  obtain ⟨⟨time, s₃⟩, htime, h⟩ := of_bind_eq_ok h
  obtain ⟨⟨⟩, hend, -⟩ := of_bind_eq_ok h
  have hT : s₁ = 'T' :: s₂ := by
    cases s₁ with
    | nil => exact nomatch hmark
    | cons c s₁ =>
      rw [readMark] at hmark
      split at hmark
      · rename_i hc
        rw [hc, Except.ok.inj hmark]
      · exact nomatch hmark
  obtain ⟨before, rfl, hbefore, -⟩ := takes_readDateFields hdate
  obtain ⟨behind, rfl, hbehind, hfive⟩ := takes_readTimeFields htime
  rw [readEnd_eq_ok_iff.mp hend, List.append_nil] at hT
  exact ⟨before, behind, congrArg _ hT, hbefore, hbehind, hfive⟩

end Calendar

namespace Zone

open Text

variable {s rest hours minutes zone : List Char} {offset : Option ℤ} {n : ℕ} {c d : Char}

/-! ## Zones -/

/-- The number in a field of two places: two digits, or a sign and a digit. -/
inductive Field : List Char → ℤ → Prop
  | digits {c d : Char} (hc : c.isDigit) (hd : d.isDigit) :
    Field [c, d] (10 * (c.toNat - 48 : ℕ) + (d.toNat - 48 : ℕ))
  | plus {d : Char} (hd : d.isDigit) : Field ['+', d] (d.toNat - 48 : ℕ)
  | minus {d : Char} (hd : d.isDigit) : Field ['-', d] (-(d.toNat - 48 : ℕ))

/-- No zone or the text of one, with the offset in minutes. -/
inductive Denotes : List Char → Option ℤ → Prop
  | none : Denotes [] none
  | reference : Denotes ['Z'] (some 0)
  | east {hours minutes : List Char} {h m : ℤ} (hh : Field hours h) (hm : Field minutes m)
    (hle : h ≤ 14) (mle : m ≤ 59) (hlast : h = 14 → m = 0) :
    Denotes ('+' :: (hours ++ ':' :: minutes)) (some (h * 60 + m))
  | west {hours minutes : List Char} {h m : ℤ} (hh : Field hours h) (hm : Field minutes m)
    (hle : h ≤ 14) (mle : m ≤ 59) (hlast : h = 14 → m = 0) :
    Denotes ('-' :: (hours ++ ':' :: minutes)) (some (-(h * 60 + m)))

/-- No zone, or one in the usual form: a `Z`, or a sign and hours and minutes in two digits each, at
most 14 hours. -/
inductive IsUsual : List Char → Option ℤ → Prop
  | none : IsUsual [] none
  | reference : IsUsual ['Z'] (some 0)
  | offset {sign a b c d : Char} {h m : ℕ} (hsign : sign = '+' ∨ sign = '-')
    (hdigits : ∀ x ∈ [a, b, c, d], x.isDigit)
    (hh : h = 10 * (a.toNat - 48) + (b.toNat - 48))
    (hm : m = 10 * (c.toNat - 48) + (d.toNat - 48)) (mle : m ≤ 59) (hle : 60 * h + m ≤ 60 * 14) :
    IsUsual [sign, a, b, ':', c, d]
      (some (if sign = '-' then -(60 * h + m : ℕ) else (60 * h + m : ℕ)))

/-- None of the fields has a sign of its own. -/
def HasPlainFields (zone : List Char) : Prop := ∀ c ∈ zone.tail, c ≠ '+' ∧ c ≠ '-'

/-! ## Fields -/

/-- The width of a text in bytes. -/
def width : List Char → ℕ
  | [] => 0
  | c :: s => c.utf8Size + width s

theorem width_append (s t : List Char) : width (s ++ t) = width s + width t := by
  induction s with
  | nil => simp [width]
  | cons c s ih => rw [List.cons_append, width, width, ih, Nat.add_assoc]

theorem width_reverse (s : List Char) : width s.reverse = width s := by
  induction s with
  | nil => rfl
  | cons c s ih =>
    rw [List.reverse_cons, width_append, ih]
    simp only [width]
    omega

theorem takeWidth?_eq_some_iff {a b : List Char} :
    takeWidth? n s = some (a, b) ↔ s = a ++ b ∧ width a = n := by
  induction s generalizing n a with
  | nil =>
    cases n with
    | zero => cases a <;> simp [takeWidth?, width, eq_comm]
    | succ n => cases a <;> simp [takeWidth?, width]
  | cons c s ih =>
    have hpos := c.utf8Size_pos
    cases n with
    | zero =>
      cases a with
      | nil => simp [takeWidth?, width, eq_comm]
      | cons d a =>
        have hpos' := d.utf8Size_pos
        simp only [takeWidth?, width]
        refine iff_of_false (by simp) fun h => ?_
        omega
    | succ n =>
      rw [takeWidth?]
      cases a with
      | nil =>
        refine iff_of_false ?_ (by simp [width])
        split <;> simp
      | cons d a =>
        simp only [width, List.cons_append]
        split
        · rename_i hle
          rw [Option.map_eq_some_iff]
          constructor
          · rintro ⟨⟨a', b'⟩, hr, heq⟩
            obtain ⟨⟨rfl, rfl⟩, rfl⟩ : (c = d ∧ a' = a) ∧ b' = b := by simpa using heq
            obtain ⟨rfl, hw⟩ := ih.mp hr
            exact ⟨rfl, by omega⟩
          · rintro ⟨hs, hw⟩
            obtain ⟨rfl, rfl⟩ := List.cons.inj hs
            exact ⟨(a, b), ih.mpr ⟨rfl, by omega⟩, rfl⟩
        · rename_i hgt
          refine iff_of_false (by simp) ?_
          rintro ⟨hs, hw⟩
          obtain ⟨rfl, rfl⟩ := List.cons.inj hs
          omega

theorem width_two (h : width s = 2) : (∃ c, s = [c] ∧ c.utf8Size = 2) ∨ ∃ c d, s = [c, d] := by
  have hpos := Char.utf8Size_pos
  match s with
  | [] => exact absurd h (by decide)
  | [c] => exact .inl ⟨c, rfl, by simpa [width] using h⟩
  | [c, d] => exact .inr ⟨c, d, rfl⟩
  | c :: d :: e :: s =>
    have hc := hpos c
    have hd := hpos d
    have he := hpos e
    simp only [width] at h
    omega

/-- **A sign and two fields of two places each, around a colon.** -/
theorem fields?_eq_some_iff {isMinus : Bool} :
    fields? s = some (rest, isMinus, hours, minutes) ↔
      s = rest ++ (if isMinus then '-' else '+') :: (hours ++ ':' :: minutes) ∧
        width hours = 2 ∧ width minutes = 2 := by
  constructor
  · intro h
    unfold fields? at h
    obtain ⟨⟨m, s₁⟩, hm, h⟩ := Option.bind_eq_some_iff.mp h
    obtain ⟨hs, hwm⟩ := takeWidth?_eq_some_iff.mp hm
    dsimp only at h
    split at h
    · rename_i s₂
      rw [Option.bind_eq_bind, Option.bind_some] at h
      obtain ⟨⟨hr, s₃⟩, hh, h⟩ := Option.bind_eq_some_iff.mp h
      obtain ⟨hs₂, hwh⟩ := takeWidth?_eq_some_iff.mp hh
      have hs' : s = s₃.reverse ++ (hr.reverse ++ ':' :: m.reverse) := by
        rw [← s.reverse_reverse, hs, hs₂]
        simp
      dsimp only at h
      split at h
      · simp only [Option.some.injEq, Prod.mk.injEq] at h
        obtain ⟨rfl, rfl, rfl, rfl⟩ := h
        rw [width_reverse, width_reverse]
        exact ⟨by simp [hs'], hwh, hwm⟩
      · simp only [Option.some.injEq, Prod.mk.injEq] at h
        obtain ⟨rfl, rfl, rfl, rfl⟩ := h
        rw [width_reverse, width_reverse]
        exact ⟨by simp [hs'], hwh, hwm⟩
      · exact nomatch h
    · exact nomatch h
  · rintro ⟨rfl, hwh, hwm⟩
    have hm : takeWidth? 2 (rest ++ (if isMinus then '-' else '+') ::
        (hours ++ ':' :: minutes)).reverse = some (minutes.reverse,
          ':' :: (hours.reverse ++ (if isMinus then '-' else '+') :: rest.reverse)) := by
      refine takeWidth?_eq_some_iff.mpr ⟨by simp, ?_⟩
      rw [width_reverse, hwm]
    have hh : takeWidth? 2 (hours.reverse ++ (if isMinus then '-' else '+') :: rest.reverse) =
        some (hours.reverse, (if isMinus then '-' else '+') :: rest.reverse) := by
      refine takeWidth?_eq_some_iff.mpr ⟨rfl, ?_⟩
      rw [width_reverse, hwh]
    unfold fields?
    rw [hm]
    change (takeWidth? 2 (hours.reverse ++ (if isMinus then '-' else '+') :: rest.reverse) >>= _) =
      _
    rw [hh]
    cases isMinus <;> simp

theorem digitValue?_ten_eq_some_iff : digitValue? 10 c = some n ↔
    c.isDigit ∧ n = c.toNat - 48 := by
  rw [digitValue?_ten]
  split
  · rename_i hc
    simp [hc, eq_comm]
  · rename_i hc
    simp [hc]

/-- **The numeral in two places** is a field. -/
theorem signed?_eq_some_iff {x : ℤ} (hw : width s = 2) : signed? 10 s = some x ↔ Field s x := by
  rcases width_two hw with ⟨c, rfl, hc⟩ | ⟨c, d, rfl⟩
  · refine iff_of_false (fun h => ?_) (nomatch ·)
    have := utf8Size_of_lt (toNat_lt_of_signed?_one h)
    omega
  · simp only [signed?_two, unsigned?_two, digitValue?_ten_eq_some_iff]
    constructor
    · rintro (⟨rfl, n, ⟨hd, rfl⟩, rfl⟩ |
        ⟨n, ⟨rfl, hd, rfl⟩ | ⟨a, b, ⟨hc, rfl⟩, ⟨hd, rfl⟩, rfl⟩, rfl⟩)
      · exact .minus hd
      · exact .plus hd
      · have heq : (((c.toNat - 48) * 10 + (d.toNat - 48) : ℕ) : ℤ) =
            10 * (c.toNat - 48 : ℕ) + (d.toNat - 48 : ℕ) := by omega
        rw [heq]
        exact .digits hc hd
    · intro h
      cases h with
      | digits hc hd =>
        exact .inr ⟨_, .inr ⟨_, _, ⟨hc, rfl⟩, ⟨hd, rfl⟩, rfl⟩, by omega⟩
      | plus hd => exact .inr ⟨_, .inl ⟨rfl, hd, rfl⟩, rfl⟩
      | minus hd => exact .inl ⟨rfl, _, ⟨hd, rfl⟩, rfl⟩

theorem Field.width_eq {x : ℤ} (h : Field s x) : width s = 2 := by
  have hsize {c : Char} (hc : c.isDigit) : c.utf8Size = 1 :=
    utf8Size_of_lt (toNat_lt_of_digitValue? (digitValue?_ten_eq_some_iff.mpr ⟨hc, rfl⟩))
  have hplus : '+'.utf8Size = 1 := by decide
  have hminus : '-'.utf8Size = 1 := by decide
  cases h with
  | digits hc hd => simp [width, hsize hc, hsize hd]
  | plus hd => simp [width, hsize hd, hplus]
  | minus hd => simp [width, hsize hd, hminus]

/-! ## Splitting a literal -/

/-- The text ends neither in a `Z` nor in anything like fields. -/
structure IsBare (s : List Char) : Prop where
  last : s.getLast? ≠ some 'Z'
  fields : fields? s = none

theorem fields?_append (rest : List Char) (isMinus : Bool) {h m : ℤ} (hh : Field hours h)
    (hm : Field minutes m) :
    fields? (rest ++ (if isMinus then '-' else '+') :: (hours ++ ':' :: minutes)) =
      some (rest, isMinus, hours, minutes) :=
  fields?_eq_some_iff.mpr ⟨rfl, hh.width_eq, hm.width_eq⟩

/-- A field ends in a digit. -/
theorem Field.exists_last {x : ℤ} (h : Field minutes x) :
    ∃ c d, minutes = [c, d] ∧ d.isDigit := by
  cases h with
  | digits _ hd | plus hd | minus hd => exact ⟨_, _, rfl, hd⟩

theorem Field.getLast?_append {x : ℤ} (h : Field minutes x) (s : List Char) :
    (s ++ minutes).getLast? ≠ some 'Z' := by
  obtain ⟨c, d, rfl, hd⟩ := h.exists_last
  intro hlast
  have hZ : d = 'Z' := by simpa using hlast
  rw [hZ] at hd
  exact absurd hd (by decide)

/-- **What is split off is a zone.** -/
theorem exists_zone_of_split (h : split s = .ok (rest, offset)) :
    ∃ zone, s = rest ++ zone ∧ Denotes zone offset := by
  unfold split at h
  split at h
  · rename_i hlast
    obtain ⟨rfl, rfl⟩ := Prod.mk.inj (Except.ok.inj h)
    rw [beq_iff_eq] at hlast
    exact ⟨['Z'], (List.dropLast_append_getLast? 'Z' hlast).symm, .reference⟩
  · split at h
    · obtain ⟨rfl, rfl⟩ := Prod.mk.inj (Except.ok.inj h)
      exact ⟨[], (List.append_nil _).symm, .none⟩
    · rename_i rest' isMinus hours minutes hfields
      obtain ⟨rfl, hwh, hwm⟩ := fields?_eq_some_iff.mp hfields
      split at h
      · rename_i x y hx hy
        rw [signed?_eq_some_iff hwh] at hx
        rw [signed?_eq_some_iff hwm] at hy
        split at h
        · exact nomatch h
        · rename_i hbounds
          simp only [not_or, not_lt, not_and, ne_eq, not_not] at hbounds
          obtain ⟨hle, mle, hlast⟩ := hbounds
          obtain ⟨rfl, rfl⟩ := Prod.mk.inj (Except.ok.inj h)
          refine ⟨_, rfl, ?_⟩
          cases isMinus with
          | true => exact .west hx hy hle mle hlast
          | false => exact .east hx hy hle mle hlast
      · exact nomatch h

/-- **A zone is split off**, if what is before it does not end in one. -/
theorem split_append (h : Denotes zone offset) (hrest : IsBare rest) :
    split (rest ++ zone) = .ok (rest, offset) := by
  have hoffset (isMinus : Bool) {hours minutes : List Char} {h m : ℤ} (hh : Field hours h)
      (hm : Field minutes m) (hle : h ≤ 14) (mle : m ≤ 59) (hlast : h = 14 → m = 0) :
      split (rest ++ (if isMinus then '-' else '+') :: (hours ++ ':' :: minutes)) =
        .ok (rest, some (if isMinus then -(h * 60 + m) else h * 60 + m)) := by
    have hend : (rest ++ (if isMinus then '-' else '+') :: (hours ++ ':' :: minutes)).getLast? ≠
        some 'Z' := by
      have hend := hm.getLast?_append (rest ++ (if isMinus then '-' else '+') :: (hours ++ [':']))
      simpa using hend
    have hbounds : ¬ (h > 14 ∨ m > 59 ∨ (h = 14 ∧ m ≠ 0)) := by
      rintro (hgt | hgt | ⟨heq, hne⟩)
      · omega
      · omega
      · exact hne (hlast heq)
    unfold split
    rw [if_neg (by simpa using hend), fields?_append rest isMinus hh hm]
    dsimp only
    rw [(signed?_eq_some_iff hh.width_eq).mpr hh, (signed?_eq_some_iff hm.width_eq).mpr hm]
    dsimp only
    rw [if_neg hbounds]
  cases h with
  | none =>
    rw [List.append_nil, split, if_neg (by simpa using hrest.last), hrest.fields]
  | reference =>
    rw [split, if_pos (by simp), List.dropLast_concat]
  | east hh hm hle mle hlast => exact hoffset false hh hm hle mle hlast
  | west hh hm hle mle hlast => exact hoffset true hh hm hle mle hlast

theorem IsBare.zone_eq_nil (h : IsBare s) (hs : s = rest ++ zone) (hzone : Denotes zone offset) :
    zone = [] := by
  cases hzone with
  | none => rfl
  | reference => exact absurd (by simp [hs]) h.last
  | east hh hm =>
    have hfields := fields?_append rest false hh hm
    rw [if_neg Bool.false_ne_true, ← hs, h.fields] at hfields
    exact nomatch hfields
  | west hh hm =>
    have hfields := fields?_append rest true hh hm
    rw [if_pos rfl, ← hs, h.fields] at hfields
    exact nomatch hfields

theorem fields?_eq_none (h : ∀ rest sign hours minutes, (sign = '+' ∨ sign = '-') →
    width hours = 2 → width minutes = 2 → s ≠ rest ++ sign :: (hours ++ ':' :: minutes)) :
    fields? s = none := by
  by_contra hne
  obtain ⟨⟨rest, isMinus, hours, minutes⟩, hfields⟩ := Option.ne_none_iff_exists'.mp hne
  obtain ⟨hs, hwh, hwm⟩ := fields?_eq_some_iff.mp hfields
  refine h rest _ hours minutes ?_ hwh hwm hs
  cases isMinus with
  | true => exact .inr rfl
  | false => exact .inl rfl

/-! ## Dates and times end in no zone -/

theorem not_isNumberChar (h : c ∈ ['Z', 'T', ':', '+', '-']) : ¬ Calendar.IsNumberChar c := by
  unfold Calendar.IsNumberChar
  simp only [List.mem_cons, List.not_mem_nil, or_false] at h
  rcases h with rfl | rfl | rfl | rfl | rfl <;> decide

theorem not_isDateChar (h : c ∈ ['Z', ':']) : ¬ Calendar.IsDateChar c := by
  simp only [List.mem_cons, List.not_mem_nil, or_false] at h
  rcases h with rfl | rfl
  · exact not_or.mpr ⟨not_isNumberChar (by decide), by decide⟩
  · exact not_or.mpr ⟨not_isNumberChar (by decide), by decide⟩

theorem not_isTimeChar (h : c ∈ ['Z', 'T', '+', '-']) : ¬ Calendar.IsTimeChar c := by
  simp only [List.mem_cons, List.not_mem_nil, or_false] at h
  rcases h with rfl | rfl | rfl | rfl
  · exact not_or.mpr ⟨not_isNumberChar (by decide), by decide⟩
  · exact not_or.mpr ⟨not_isNumberChar (by decide), by decide⟩
  · exact not_or.mpr ⟨not_isNumberChar (by decide), by decide⟩
  · exact not_or.mpr ⟨not_isNumberChar (by decide), by decide⟩

theorem isBare_of_readDate {d : Date} (h : Calendar.readDate s = .ok d) : IsBare s := by
  have hs := Calendar.isDateChar_of_readDate h
  refine ⟨fun hlast => ?_, fields?_eq_none fun rest sign hours minutes _ _ _ heq => ?_⟩
  · exact not_isDateChar (by decide) (hs 'Z' (List.mem_of_getLast? hlast))
  · exact not_isDateChar (by decide) (hs ':' (by simp [heq]))

theorem isBare_of_readTime {t : TimeOfDay} (h : Calendar.readTime s = .ok t) : IsBare s := by
  have hs := Calendar.isTimeChar_of_readTime h
  refine ⟨fun hlast => ?_, fields?_eq_none fun rest sign hours minutes hsign _ _ heq => ?_⟩
  · exact not_isTimeChar (by decide) (hs 'Z' (List.mem_of_getLast? hlast))
  · have hmem : sign ∈ ['Z', 'T', '+', '-'] := by rcases hsign with rfl | rfl <;> decide
    exact not_isTimeChar hmem (hs sign (by simp [heq]))

/-- No sign stands behind the `T`, and before it none is near enough to the end. -/
theorem isBare_of_readDateTime {d : DateTime} (h : Calendar.readDateTime s = .ok d) :
    IsBare s := by
  obtain ⟨date, time, rfl, hdate, htime, hfive⟩ := Calendar.exists_parts_of_readDateTime h
  refine ⟨fun hlast => ?_, fields?_eq_none fun rest sign hours minutes hsign hwh hwm heq => ?_⟩
  · have hmem : 'Z' ∈ date ++ 'T' :: time := List.mem_of_getLast? hlast
    rcases List.mem_append.mp hmem with hZ | hZ
    · exact not_isDateChar (by decide) (hdate 'Z' hZ)
    · rcases List.mem_cons.mp hZ with hZ | hZ
      · exact absurd hZ (by decide)
      · exact not_isTimeChar (by decide) (htime 'Z' hZ)
  · have hle (t : List Char) : t.length ≤ width t := by
      induction t with
      | nil => rfl
      | cons c t ih =>
        have hpos := c.utf8Size_pos
        simp only [width, List.length_cons] at ih ⊢
        omega
    have hhours := hle hours
    have hminutes := hle minutes
    -- the sign is too near to the end to stand before the `T`
    obtain ⟨a, hrest, htail⟩ | ⟨a, hdate', htail⟩ := List.append_eq_append_iff.mp heq
    · have hsignTail : sign ∈ 'T' :: time := by rw [htail]; simp
      have hmem : sign ∈ ['Z', 'T', '+', '-'] := by rcases hsign with rfl | rfl <;> decide
      rcases List.mem_cons.mp hsignTail with rfl | hsignTail
      · rcases hsign with hT | hT <;> exact absurd hT (by decide)
      · exact not_isTimeChar hmem (htime sign hsignTail)
    · have hlength := congrArg List.length htail
      simp only [List.length_cons, List.length_append] at hlength
      cases a with
      | nil =>
        obtain ⟨rfl, -⟩ := List.cons.inj htail
        rcases hsign with hT | hT <;> exact absurd hT (by decide)
      | cons x a =>
        simp only [List.length_cons] at hlength
        omega

/-! ## The usual form -/

theorem not_sign_of_isDigit (h : c.isDigit) : c ≠ '+' ∧ c ≠ '-' := by
  constructor <;> (rintro rfl; exact absurd h (by decide))

/-- A field without a sign is made up of two digits. -/
theorem Field.exists_digits {x : ℤ} (h : Field s x) (hplain : ∀ c ∈ s, c ≠ '+' ∧ c ≠ '-') :
    ∃ a b, s = [a, b] ∧ a.isDigit ∧ b.isDigit ∧
      x = (10 * (a.toNat - 48) + (b.toNat - 48) : ℕ) := by
  cases h with
  | digits hc hd => exact ⟨_, _, rfl, hc, hd, by push_cast; rfl⟩
  | plus hd => exact absurd rfl (hplain '+' (.head _)).1
  | minus hd => exact absurd rfl (hplain '-' (.head _)).2

/-- **A zone has the usual form** if no field has a sign of its own. -/
theorem isUsual_iff (h : Denotes zone offset) : IsUsual zone offset ↔ HasPlainFields zone := by
  constructor
  · intro husual
    cases husual with
    | none | reference => exact nofun
    | offset hsign hdigits =>
      simp only [List.forall_mem_cons] at hdigits
      obtain ⟨ha, hb, hc, hd, -⟩ := hdigits
      simp [HasPlainFields, not_sign_of_isDigit ha, not_sign_of_isDigit hb,
        not_sign_of_isDigit hc, not_sign_of_isDigit hd]
  · intro hplain
    cases h with
    | none => exact .none
    | reference => exact .reference
    | east hh hm hle mle hlast =>
      obtain ⟨hhours, hminutes⟩ := List.forall_mem_append.mp hplain
      obtain ⟨a, b, rfl, ha, hb, rfl⟩ := hh.exists_digits hhours
      obtain ⟨c, d, rfl, hc, hd, rfl⟩ := hm.exists_digits fun x hx => hminutes x (.tail _ hx)
      have hsign : '+' = '+' ∨ '+' = '-' := .inl rfl
      have husual := IsUsual.offset hsign (a := a) (b := b) (c := c) (d := d)
        (by simp [ha, hb, hc, hd]) rfl rfl (by omega) (by omega)
      rw [if_neg (by decide)] at husual
      convert husual using 2
      · rfl
      · omega
    | west hh hm hle mle hlast =>
      obtain ⟨hhours, hminutes⟩ := List.forall_mem_append.mp hplain
      obtain ⟨a, b, rfl, ha, hb, rfl⟩ := hh.exists_digits hhours
      obtain ⟨c, d, rfl, hc, hd, rfl⟩ := hm.exists_digits fun x hx => hminutes x (.tail _ hx)
      have hsign : '-' = '+' ∨ '-' = '-' := .inr rfl
      have husual := IsUsual.offset hsign (a := a) (b := b) (c := c) (d := d)
        (by simp [ha, hb, hc, hd]) rfl rfl (by omega) (by omega)
      rw [if_pos rfl] at husual
      convert husual using 2
      · rfl
      · omega

end Zone

/-! ## The built-in types -/

namespace Builtin

open Zone

variable {t : Builtin} {ctx : ValueContext} {s : String} {v : Value} {a : Atom} {form : Form}
  {literal zone : List Char} {offset : Option ℤ}

/-- The value of the text of a date or time with an offset: a date is kept with it, other values
are moved to the reference. -/
inductive PointOf : Form → List Char → Option ℤ → Atom → Prop
  | date {literal : List Char} {d : Date} (h : Calendar.readDate literal = .ok d)
    (offset : Option ℤ) : PointOf .date literal offset (.date d offset)
  | dateTime {literal : List Char} {d : DateTime} (h : Calendar.readDateTime literal = .ok d) :
    PointOf .dateTime literal none (.dateTime d false)
  | zonedDateTime {literal : List Char} {d d' : DateTime} {offset : ℤ}
    (h : Calendar.readDateTime literal = .ok d) (hmoved : d.minusMinutes? offset = some d') :
    PointOf .dateTime literal (some offset) (.dateTime d' true)
  | time {literal : List Char} {t : TimeOfDay} (h : Calendar.readTime literal = .ok t) :
    PointOf .time literal none (.time t false)
  | zonedTime {literal : List Char} {t : TimeOfDay} (h : Calendar.readTime literal = .ok t)
    (offset : ℤ) : PointOf .time literal (some offset) (.time (t.minusMinutes offset).1 true)

theorem PointOf.isBare (h : PointOf form literal offset a) : IsBare literal := by
  cases h with
  | date h => exact isBare_of_readDate h
  | dateTime h | zonedDateTime h => exact isBare_of_readDateTime h
  | time h | zonedTime h => exact isBare_of_readTime h

/-- The point of time before the zone of a text. -/
def ZonedPointOf (form : Form) (s : List Char) (a : Atom) : Prop :=
  ∃ literal zone offset, s = literal ++ zone ∧ Denotes zone offset ∧ PointOf form literal offset a

theorem splitZone_eq_ok_iff {r : List Char × Option ℤ} :
    splitZone s = .ok r ↔ Zone.split s.toList = .ok r := by
  constructor
  · exact of_mapError_eq_ok
  · intro h
    rw [splitZone, h]
    rfl

/-- What is read behind the split is read of the part before the zone. -/
theorem zonedPointOf_iff :
    ZonedPointOf form s.toList a ↔
      ∃ r, splitZone s = .ok r ∧ PointOf form r.1 r.2 a := by
  constructor
  · rintro ⟨literal, zone, offset, hs, hzone, hpoint⟩
    have hsplit := split_append hzone hpoint.isBare
    rw [← hs] at hsplit
    exact ⟨(literal, offset), splitZone_eq_ok_iff.mpr hsplit, hpoint⟩
  · rintro ⟨⟨literal, offset⟩, hsplit, hpoint⟩
    obtain ⟨zone, hs, hzone⟩ := exists_zone_of_split (splitZone_eq_ok_iff.mp hsplit)
    exact ⟨literal, zone, offset, hs, hzone, hpoint⟩

theorem readDate_eq_ok_iff : readDate s = .ok a ↔ ZonedPointOf .date s.toList a := by
  rw [zonedPointOf_iff]
  constructor
  · intro h
    obtain ⟨⟨literal, offset⟩, hsplit, h⟩ := of_bind_eq_ok h
    obtain ⟨d, hd, h⟩ := of_bind_eq_ok h
    obtain rfl := Except.ok.inj h
    exact ⟨_, hsplit, .date (of_mapError_eq_ok hd) offset⟩
  · rintro ⟨⟨literal, offset⟩, hsplit, hpoint⟩
    dsimp only at hpoint
    cases hpoint with
    | date h =>
      rw [readDate, hsplit]
      simp only [bind, Except.bind, h, Except.mapError]
      rfl

theorem readDateTime_eq_ok_iff : readDateTime s = .ok a ↔ ZonedPointOf .dateTime s.toList a := by
  rw [zonedPointOf_iff]
  constructor
  · intro h
    obtain ⟨⟨literal, offset⟩, hsplit, h⟩ := of_bind_eq_ok h
    obtain ⟨d, hd, h⟩ := of_bind_eq_ok h
    have hd := of_mapError_eq_ok hd
    cases offset with
    | none =>
      obtain rfl := Except.ok.inj h
      exact ⟨_, hsplit, .dateTime hd⟩
    | some offset =>
      dsimp only at h
      split at h
      · rename_i hmoved
        obtain rfl := Except.ok.inj h
        exact ⟨_, hsplit, .zonedDateTime hd hmoved⟩
      · exact nomatch h
  · rintro ⟨⟨literal, offset⟩, hsplit, hpoint⟩
    dsimp only at hpoint
    cases hpoint with
    | dateTime h =>
      rw [readDateTime, hsplit]
      simp only [bind, Except.bind, h, Except.mapError]
      rfl
    | zonedDateTime h hmoved =>
      rw [readDateTime, hsplit]
      simp only [bind, Except.bind, h, Except.mapError, hmoved]
      rfl

theorem readTime_eq_ok_iff : readTime s = .ok a ↔ ZonedPointOf .time s.toList a := by
  rw [zonedPointOf_iff]
  constructor
  · intro h
    obtain ⟨⟨literal, offset⟩, hsplit, h⟩ := of_bind_eq_ok h
    obtain ⟨t, ht, h⟩ := of_bind_eq_ok h
    have ht := of_mapError_eq_ok ht
    cases offset with
    | none =>
      obtain rfl := Except.ok.inj h
      exact ⟨_, hsplit, .time ht⟩
    | some offset =>
      obtain rfl := Except.ok.inj h
      exact ⟨_, hsplit, .zonedTime ht offset⟩
  · rintro ⟨⟨literal, offset⟩, hsplit, hpoint⟩
    dsimp only at hpoint
    cases hpoint with
    | time h =>
      rw [readTime, hsplit]
      simp only [bind, Except.bind, h, Except.mapError]
      rfl
    | zonedTime h =>
      rw [readTime, hsplit]
      simp only [bind, Except.bind, h, Except.mapError]
      rfl

/-- The types of points of time, with their forms. -/
def calendarForms : List (String × Form) :=
  [("date", .date), ("dateTime", .dateTime), ("time", .time)]

theorem find?_of_mem_calendarForms {name : String} (h : (name, form) ∈ calendarForms) :
    find? name = some (atomic name "anySimpleType" form) := by
  simp only [calendarForms, List.mem_cons, Prod.mk.injEq, List.not_mem_nil, or_false] at h
  rcases h with ⟨rfl, rfl⟩ | ⟨rfl, rfl⟩ | ⟨rfl, rfl⟩ <;> decide

theorem read_calendar_eq_ok_iff {name type : String} (h : (name, form) ∈ calendarForms) :
    form.read type ctx s = .ok a ↔ ZonedPointOf form s.toList a := by
  simp only [calendarForms, List.mem_cons, Prod.mk.injEq, List.not_mem_nil, or_false] at h
  rcases h with ⟨-, rfl⟩ | ⟨-, rfl⟩ | ⟨-, rfl⟩
  · exact readDate_eq_ok_iff
  · exact readDateTime_eq_ok_iff
  · exact readTime_eq_ok_iff

/-- **Values of dates and times.** A literal is accepted if it is, without the white space around
it, the text of a date or time with no zone, a `Z`, or an offset of fields behind it, and its value
is the one before the zone with that offset. There is one way to see it so. The zone has the usual
form exactly if none of the fields has a sign of its own. -/
theorem calendar_values (name : String) (hname : (name, form) ∈ calendarForms)
    (ht : find? name = some t) (ctx : ValueContext) :
    (∀ s v, t.validate ctx s = .ok v ↔ ∃ literal zone offset a,
      (Spacing.collapse.normalize s).toList = literal ++ zone ∧ Denotes zone offset ∧
        PointOf form literal offset a ∧ v = .atom a) ∧
    (∀ literal offset a, PointOf form literal offset a → ∀ rest zone offset',
      literal = rest ++ zone → Denotes zone offset' → zone = []) ∧
    ∀ zone offset, Denotes zone offset → (IsUsual zone offset ↔ HasPlainFields zone) := by
  obtain rfl := Option.some.inj (ht.symm.trans (find?_of_mem_calendarForms hname))
  refine ⟨fun s v => ?_, fun literal offset a h rest zone offset' hs hzone =>
    h.isBare.zone_eq_nil hs hzone, fun zone offset => isUsual_iff⟩
  constructor
  · intro h
    obtain ⟨a, ha, rfl⟩ := of_map_eq_ok h
    obtain ⟨literal, zone, offset, hs, hzone, hpoint⟩ := (read_calendar_eq_ok_iff hname).mp ha
    exact ⟨literal, zone, offset, a, hs, hzone, hpoint, rfl⟩
  · rintro ⟨literal, zone, offset, a, hs, hzone, hpoint, rfl⟩
    have hread : form.read name ctx (Spacing.collapse.normalize s) = .ok a :=
      (read_calendar_eq_ok_iff hname).mpr ⟨literal, zone, offset, hs, hzone, hpoint⟩
    change (form.read name ctx (Spacing.collapse.normalize s)).map Value.atom = _
    rw [hread]
    rfl

/-- A date half a day and more east of the reference. -/
theorem calendar_values_date : ∃ t, find? "date" = some t ∧
    t.validate {} " 2024-01-01+13:30 " = .ok (.atom (.date ⟨2024, 1, 1⟩ (some 810))) := by
  have hhours : Field ['1', '3'] 13 := .digits (by decide) (by decide)
  have hminutes : Field ['3', '0'] 30 := .digits (by decide) (by decide)
  have hzone := Denotes.east hhours hminutes (by decide) (by decide) (by decide)
  have hdate : Calendar.readDate "2024-01-01".toList = .ok ⟨2024, 1, 1⟩ :=
    eq_ok_of_toOption (by decide)
  have hvalues := calendar_values "date" (.head _) rfl {}
  exact ⟨_, rfl, (hvalues.1 _ _).mpr ⟨_, _, _, _, by decide, hzone, .date hdate _, rfl⟩⟩

/-- An hour with a sign of its own turns the direction around: no zone in the usual form is at the
end. -/
theorem exists_date_signedZone : ∃ t, find? "date" = some t ∧
    t.validate {} "2024-01-01+-5:30" = .ok (.atom (.date ⟨2024, 1, 1⟩ (some (-270)))) ∧
    ¬ ∃ literal zone offset a,
      (Spacing.collapse.normalize "2024-01-01+-5:30").toList = literal ++ zone ∧
        IsUsual zone offset ∧ PointOf .date literal offset a := by
  refine ⟨_, rfl, eq_ok_of_toOption (by decide +kernel), ?_⟩
  rintro ⟨literal, zone, offset, a, hs, hzone, hpoint⟩
  have hnormal : Spacing.collapse.normalize "2024-01-01+-5:30" = "2024-01-01+-5:30" := by
    decide
  rw [hnormal] at hs
  cases hzone with
  | none =>
    rw [List.append_nil] at hs
    obtain rfl := hs
    cases hpoint with
    | date h =>
      have hfails : Calendar.readDate "2024-01-01+-5:30".toList = .error .tooLong := by rfl
      rw [hfails] at h
      exact nomatch h
  | reference =>
    have hlast := congrArg List.getLast? hs
    rw [List.getLast?_concat] at hlast
    exact absurd hlast (by decide)
  | @offset _ a b _ _ _ _ hsign hdigits =>
    have hlength := congrArg List.length hs
    have hten : literal.length = 10 := by
      simpa using hlength.symm
    have hdrop := congrArg (List.drop 10) hs
    rw [← hten, List.drop_left, hten] at hdrop
    have ha : '-' = a := (List.cons.inj (List.cons.inj hdrop).2).1
    exact absurd (hdigits a (by simp)) (ha ▸ by decide)

end Builtin

end MarkupGrammar
