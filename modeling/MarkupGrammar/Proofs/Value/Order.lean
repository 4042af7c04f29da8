import MarkupGrammar.Proofs.Outcome
import MarkupGrammar.Proofs.Value.Decimal
import MarkupGrammar.SimpleType.Facet

/-! # The order of values

Decimal numbers, dates and times are compared part by part, so within each space comparing is a
linear order that agrees with equality. Of two values it tells more than their spaces alone only
where both have a time zone or neither has (`Atom.compare?_eq_some_iff`).

Dates are kept where they are observed, so two dates of the same day can differ by their zones
alone. Comparing does not see that difference: these are the only values that compare as equal
without being equal (`Value.compare?_consistent`), and the only ones between two equal inclusive
bounds that are not the bound. Dates with times and times of day are moved to the reference before
they are compared. -/

namespace MarkupGrammar

/-! ## Linear orders -/

instance : Std.TransCmp Date.compare :=
  inferInstanceAs (Std.TransCmp
    (compareLex (compareOn Date.year) (compareLex (compareOn Date.month) (compareOn Date.day))))

instance : Std.LawfulEqCmp Date.compare where
  eq_of_compare {a b} h := by
    obtain ⟨hyear, h⟩ := Ordering.then_eq_eq.mp h
    obtain ⟨hmonth, hday⟩ := Ordering.then_eq_eq.mp h
    cases a
    cases b
    simp_all

instance : Std.TransCmp TimeOfDay.compare :=
  inferInstanceAs (Std.TransCmp
    (compareLex (compareOn TimeOfDay.seconds) (compareOn TimeOfDay.nanos)))

instance : Std.LawfulEqCmp TimeOfDay.compare where
  eq_of_compare {a b} h := by
    obtain ⟨hseconds, hnanos⟩ := Ordering.then_eq_eq.mp h
    cases a
    cases b
    simp_all

instance : Std.TransCmp DateTime.compare :=
  inferInstanceAs (Std.TransCmp (compareLex
    (Ordering.byKey DateTime.date Date.compare) (Ordering.byKey DateTime.time TimeOfDay.compare)))

instance : Std.LawfulEqCmp DateTime.compare where
  eq_of_compare {a b} h := by
    obtain ⟨hdate, htime⟩ := Ordering.then_eq_eq.mp h
    have hdate : a.date = b.date := Std.LawfulEqCmp.eq_of_compare hdate
    have htime : a.time = b.time := Std.LawfulEqCmp.eq_of_compare htime
    cases a
    cases b
    simp_all

/-- One after the other, two comparisons tell how the ends compare, if they do not go opposite
ways. -/
theorem compare_then {α : Type} {cmp : α → α → Ordering} [Std.TransCmp cmp] {a b c : α}
    (h : cmp a b = cmp b c ∨ cmp a b = .eq ∨ cmp b c = .eq) :
    cmp a c = (cmp a b).then (cmp b c) := by
  rcases h with h | h | h
  · cases hab : cmp a b with
    | lt => exact Std.TransCmp.lt_trans hab (h.symm.trans hab)
    | eq => exact Std.TransCmp.congr_left hab
    | gt => exact Std.TransCmp.gt_trans hab (h.symm.trans hab)
  · rw [h]
    exact Std.TransCmp.congr_left h
  · rw [h, Ordering.then_eq]
    exact (Std.TransCmp.congr_right h).symm

/-! ## Atoms -/

namespace Atom

variable {a b c : Atom} {o o' : Ordering}

/-- What comparing two atoms of one space tells. -/
inductive Compared : Atom → Atom → Ordering → Prop
  | decimal (x y : Decimal) : Compared (.decimal x) (.decimal y) (x.compare y)
  | double {x y : Binary64} {o : Ordering} (h : x.compare? y = some o) :
    Compared (.double x) (.double y) o
  | date (x y : Date) {z z' : Option Int} (h : z.isSome = z'.isSome) :
    Compared (.date x z) (.date y z') (x.compare y)
  | dateTime (x y : DateTime) (zoned : Bool) :
    Compared (.dateTime x zoned) (.dateTime y zoned) (x.compare y)
  | time (x y : TimeOfDay) (zoned : Bool) :
    Compared (.time x zoned) (.time y zoned) (x.compare y)

theorem compare?_eq_some_iff : a.compare? b = some o ↔ Compared a b o := by
  constructor
  · intro h
    unfold compare? at h
    split at h
    · obtain rfl := Option.some.inj h
      exact .decimal _ _
    · exact .double h
    · split at h
      · rename_i hzones
        obtain rfl := Option.some.inj h
        exact .date _ _ hzones
      · exact nomatch h
    · split at h
      · rename_i hzones
        obtain rfl := Option.some.inj h
        rw [hzones]
        exact .dateTime _ _ _
      · exact nomatch h
    · split at h
      · rename_i hzones
        obtain rfl := Option.some.inj h
        rw [hzones]
        exact .time _ _ _
      · exact nomatch h
    · exact nomatch h
  · intro h
    cases h with
    | decimal x y => rfl
    | double h => exact h
    | date x y h => exact if_pos h
    | dateTime x y zoned => exact if_pos rfl
    | time x y zoned => exact if_pos rfl

/-- Whether an atom is a decimal number, a date or a time. -/
def isPoint : Atom → Bool
  | decimal _ | date _ _ | dateTime _ _ | time _ _ => true
  | string _ | boolean _ | double _ | binary _ | uri _ | name _ => false

/-- Two dates of the same day in different zones. -/
inductive SharesDay : Atom → Atom → Prop
  | intro (d : Date) {z z' : Int} (h : z ≠ z') : SharesDay (.date d (some z)) (.date d (some z'))

theorem Compared.self (ha : a.isPoint) : Compared a a .eq := by
  cases a with
  | decimal x =>
    have heq : x.compare x = .eq := Std.ReflCmp.compare_self
    exact heq ▸ .decimal x x
  | date x z =>
    have heq : x.compare x = .eq := Std.ReflCmp.compare_self
    exact heq ▸ .date x x rfl
  | dateTime x zoned =>
    have heq : x.compare x = .eq := Std.ReflCmp.compare_self
    exact heq ▸ .dateTime x x zoned
  | time x zoned =>
    have heq : x.compare x = .eq := Std.ReflCmp.compare_self
    exact heq ▸ .time x x zoned
  | _ => exact absurd ha Bool.false_ne_true

/-- Dates that compare as equal are equal, or they share a day. -/
theorem date_eq_or_sharesDay (d : Date) {z z' : Option Int} (h : z.isSome = z'.isSome) :
    date d z = date d z' ∨ SharesDay (date d z) (date d z') := by
  cases z with
  | none =>
    rw [Option.eq_none_of_isNone (Option.isSome_eq_false_iff.mp h.symm)]
    exact .inl rfl
  | some z =>
    obtain ⟨z', rfl⟩ := Option.isSome_iff_exists.mp h.symm
    by_cases hz : z = z'
    · exact .inl (by rw [hz])
    · exact .inr ⟨d, hz⟩

/-- **Equality and comparing.** -/
theorem compare?_eq_some_eq_iff (ha : a.isPoint) :
    a.compare? b = some .eq ↔ a = b ∨ SharesDay a b := by
  rw [compare?_eq_some_iff]
  constructor
  · generalize ho : Ordering.eq = o
    intro h
    cases h with
    | decimal x y => exact .inl (congrArg decimal (Std.LawfulEqCmp.eq_of_compare ho.symm))
    | double h => exact absurd ha Bool.false_ne_true
    | date x y h =>
      obtain rfl : x = y := Std.LawfulEqCmp.eq_of_compare ho.symm
      exact date_eq_or_sharesDay x h
    | dateTime x y zoned =>
      exact .inl (congrArg (dateTime · zoned) (Std.LawfulEqCmp.eq_of_compare ho.symm))
    | time x y zoned =>
      exact .inl (congrArg (time · zoned) (Std.LawfulEqCmp.eq_of_compare ho.symm))
  · rintro (rfl | ⟨d, -⟩)
    · exact .self ha
    · have heq : d.compare d = .eq := Std.ReflCmp.compare_self
      exact heq ▸ .date d d rfl

theorem Compared.isPoint_eq (h : Compared a b o) : a.isPoint = b.isPoint := by
  cases h <;> rfl

theorem Compared.swap (ha : a.isPoint) (h : Compared a b o) : Compared b a o.swap := by
  cases h with
  | decimal x y =>
    have hswap : y.compare x = (x.compare y).swap := Std.OrientedCmp.eq_swap
    exact hswap ▸ .decimal y x
  | double h => exact absurd ha Bool.false_ne_true
  | date x y h =>
    have hswap : y.compare x = (x.compare y).swap := Std.OrientedCmp.eq_swap
    exact hswap ▸ .date y x h.symm
  | dateTime x y zoned =>
    have hswap : y.compare x = (x.compare y).swap := Std.OrientedCmp.eq_swap
    exact hswap ▸ .dateTime y x zoned
  | time x y zoned =>
    have hswap : y.compare x = (x.compare y).swap := Std.OrientedCmp.eq_swap
    exact hswap ▸ .time y x zoned

/-- **Comparing the other way round.** -/
theorem compare?_swap (ha : a.isPoint) (b : Atom) :
    b.compare? a = (a.compare? b).map Ordering.swap := by
  cases hab : a.compare? b with
  | some o => exact compare?_eq_some_iff.mpr ((compare?_eq_some_iff.mp hab).swap ha)
  | none =>
    -- the other way round there is nothing to tell either, as it could be swapped back
    refine Option.eq_none_iff_forall_ne_some.mpr fun o hba => ?_
    have hba := compare?_eq_some_iff.mp hba
    have hswap := compare?_eq_some_iff.mpr (hba.swap (hba.isPoint_eq.trans ha))
    exact absurd (hab.symm.trans hswap) nofun

/-- **Comparing is transitive.** -/
theorem Compared.trans (ha : a.isPoint) (hab : Compared a b o) (hbc : Compared b c o')
    (h : o = o' ∨ o = .eq ∨ o' = .eq) : Compared a c (o.then o') := by
  cases hab with
  | decimal x y =>
    cases hbc with
    | decimal y z => exact compare_then h ▸ .decimal x z
  | double h => exact absurd ha Bool.false_ne_true
  | date x y hxy =>
    cases hbc with
    | date y z hyz =>
      have hxz : x.compare z = (x.compare y).then (y.compare z) := compare_then h
      exact hxz ▸ .date x z (hxy.trans hyz)
  | dateTime x y zoned =>
    cases hbc with
    | dateTime y z => exact compare_then h ▸ .dateTime x z zoned
  | time x y zoned =>
    cases hbc with
    | time y z =>
      have hxz : x.compare z = (x.compare y).then (y.compare z) := compare_then h
      exact hxz ▸ .time x z zoned

end Atom

/-! ## Literals -/

namespace Builtin

variable {b : Builtin} {ctx : ValueContext} {type s : String} {a : Atom} {v : Value}

/-- Whether literals are read as decimal numbers, dates or times. -/
def Form.isPoint : Form → Bool
  | decimal | integer _ _ | date | dateTime | time => true
  | text | language | name | uncolonizedName | nameToken | boolean | double | uri | base64 | hex
  | qualifiedName => false

theorem Form.isPoint_of_read {form : Form} (hform : form.isPoint)
    (h : form.read type ctx s = .ok a) : a.isPoint := by
  cases form with
  | decimal =>
    obtain ⟨d, -, rfl⟩ := of_map_eq_ok h
    rfl
  | integer minimum? maximum? =>
    obtain ⟨d, -, rfl⟩ := of_map_eq_ok h
    rfl
  | date =>
    obtain ⟨⟨literal, zone⟩, -, h⟩ := of_bind_eq_ok h
    obtain ⟨d, -, h⟩ := of_bind_eq_ok h
    rw [← Except.ok.inj h]
    rfl
  | dateTime =>
    obtain ⟨⟨literal, zone⟩, -, h⟩ := of_bind_eq_ok h
    obtain ⟨d, -, h⟩ := of_bind_eq_ok h
    split at h
    · rw [← Except.ok.inj h]
      rfl
    · split at h
      · rw [← Except.ok.inj h]
        rfl
      · exact nomatch h
  | time =>
    obtain ⟨⟨literal, zone⟩, -, h⟩ := of_bind_eq_ok h
    obtain ⟨t, -, h⟩ := of_bind_eq_ok h
    split at h
    · rw [← Except.ok.inj h]
      rfl
    · rw [← Except.ok.inj h]
      rfl
  | _ => exact absurd hform Bool.false_ne_true

/-- The types of decimal numbers, dates and times. -/
def isPoint (b : Builtin) : Bool :=
  b.derivesFrom "decimal" || ["date", "dateTime", "time"].contains b.name

/-- Whether values are decimal numbers, dates or times. -/
def Kind.isPoint : Kind → Bool
  | atomic form => form.isPoint
  | listOf _ _ => false

theorem exists_form_of_isPoint (hb : b ∈ all) (hpoint : b.isPoint) :
    ∃ form, b.kind = .atomic form ∧ form.isPoint := by
  have hall : ∀ b ∈ all, b.isPoint → b.kind.isPoint := by decide +kernel
  have hkind := hall b hb hpoint
  cases hform : b.kind with
  | atomic form => exact ⟨form, rfl, by rwa [hform] at hkind⟩
  | listOf item form => exact absurd (by rwa [hform] at hkind) Bool.false_ne_true

theorem exists_atom_of_isPoint (hb : b ∈ all) (hpoint : b.isPoint)
    (h : b.validate ctx s = .ok v) : ∃ a : Atom, v = .atom a ∧ a.isPoint := by
  obtain ⟨form, hkind, hform⟩ := exists_form_of_isPoint hb hpoint
  rw [validate, read, hkind] at h
  obtain ⟨a, ha, rfl⟩ := of_map_eq_ok h
  exact ⟨a, rfl, form.isPoint_of_read hform ha⟩

end Builtin

/-! ## Values -/

namespace Value

variable {u v w : Value}

/-- The value of a literal of a type of decimal numbers, dates or times. -/
def IsPoint (v : Value) : Prop :=
  ∃ b ∈ Builtin.all, b.isPoint ∧ ∃ ctx s, b.validate ctx s = .ok v

theorem IsPoint.exists_atom (h : v.IsPoint) : ∃ a : Atom, v = .atom a ∧ a.isPoint := by
  obtain ⟨b, hb, hpoint, ctx, s, h⟩ := h
  exact Builtin.exists_atom_of_isPoint hb hpoint h

/-- Two dates of the same day in different zones. -/
def SharesDay : Value → Value → Prop
  | .atom a, .atom b => a.SharesDay b
  | _, _ => False

theorem SharesDay.ne (h : u.SharesDay v) : u ≠ v := by
  cases u with
  | list us => exact h.elim
  | atom a =>
    cases v with
    | list vs => exact h.elim
    | atom b =>
      obtain ⟨d, hz⟩ : a.SharesDay b := h
      simpa using hz

/-- A value is between two equal inclusive bounds if it compares as equal to them. -/
theorem check_inclusive_iff {type : Name} {ctx : ValueContext} {literal : String} :
    (Facet.bound .minInclusive v).check type ctx literal u = .ok () ∧
      (Facet.bound .maxInclusive v).check type ctx literal u = .ok () ↔
      u.compare? v = some .eq := by
  rw [Facet.check, Facet.check]
  cases h : u.compare? v with
  | none => simp
  | some o => cases o <;> simp [BoundSide.admits]

/-- **Comparing is an order that agrees with equality**, but for dates of one day in different
zones. Of decimal numbers, dates and times, these are the only ones that compare as equal without
being equal, and that are between two equal inclusive bounds without being the bound. The other way
round the comparison is reversed, and one after the other two comparisons that do not go opposite
ways tell how the ends compare. -/
theorem compare?_consistent (hu : u.IsPoint) (hv : v.IsPoint) (hw : w.IsPoint) :
    (u.compare? v = some .eq ↔ u = v ∨ u.SharesDay v) ∧
    (u.SharesDay v → u ≠ v) ∧
    v.compare? u = (u.compare? v).map Ordering.swap ∧
    (∀ o o', u.compare? v = some o → v.compare? w = some o' → o = o' ∨ o = .eq ∨ o' = .eq →
      u.compare? w = some (o.then o')) ∧
    ∀ type ctx literal,
      (Facet.bound .minInclusive v).check type ctx literal u = .ok () ∧
        (Facet.bound .maxInclusive v).check type ctx literal u = .ok () ↔
        u = v ∨ u.SharesDay v := by
  obtain ⟨a, rfl, ha⟩ := hu.exists_atom
  obtain ⟨b, rfl, -⟩ := hv.exists_atom
  obtain ⟨c, rfl, -⟩ := hw.exists_atom
  have heq : (atom a).compare? (atom b) = some .eq ↔
      atom a = atom b ∨ (atom a).SharesDay (atom b) := by
    rw [atom.injEq]
    exact Atom.compare?_eq_some_eq_iff ha
  refine ⟨heq, SharesDay.ne, Atom.compare?_swap ha b, fun o o' hab hbc ho => ?_, fun _ _ _ => ?_⟩
  · have hab := Atom.compare?_eq_some_iff.mp hab
    have hbc := Atom.compare?_eq_some_iff.mp hbc
    exact Atom.compare?_eq_some_iff.mpr (hab.trans ha hbc ho)
  · exact check_inclusive_iff.trans heq

/-- The first day of a year, in a zone so many minutes to the east. -/
def newYear (zone : Int) : Value := .atom (.date ⟨2024, 1, 1⟩ (some zone))

/-- Two literals for it, at the reference and five hours to the east. -/
theorem validate_newYear : ∃ b ∈ Builtin.all, b.name = "date" ∧
    b.validate {} "2024-01-01Z" = .ok (newYear 0) ∧
    b.validate {} "2024-01-01+05:00" = .ok (newYear 300) :=
  ⟨Builtin.atomic "date" "anySimpleType" .date, by decide, rfl,
    eq_ok_of_toOption (by decide +kernel), eq_ok_of_toOption (by decide +kernel)⟩

/-- The literals compare as equal, as they are of one day in different zones. -/
theorem compare?_consistent_newYear : (newYear 0).IsPoint ∧ (newYear 300).IsPoint ∧
    (newYear 0).SharesDay (newYear 300) ∧ (newYear 0).compare? (newYear 300) = some .eq := by
  obtain ⟨b, hb, hname, hhere, heast⟩ := validate_newYear
  have hpoint : b.isPoint := by rw [Builtin.isPoint, hname, Bool.or_comm]; rfl
  have hu : (newYear 0).IsPoint := ⟨b, hb, hpoint, {}, _, hhere⟩
  have hv : (newYear 300).IsPoint := ⟨b, hb, hpoint, {}, _, heast⟩
  have hday : (newYear 0).SharesDay (newYear 300) := ⟨⟨2024, 1, 1⟩, by decide⟩
  exact ⟨hu, hv, hday, (compare?_consistent hu hv hu).1.mpr (.inr hday)⟩

/-- The two are different values that compare as equal, and each is between the inclusive bounds
that the other one is. -/
theorem exists_equal_dates : ∃ b ∈ Builtin.all, ∃ u v, b.name = "date" ∧
    b.validate {} "2024-01-01+05:00" = .ok u ∧ b.validate {} "2024-01-01Z" = .ok v ∧
    u.compare? v = some .eq ∧ u ≠ v ∧
    ∀ type ctx literal,
      (Facet.bound .minInclusive v).check type ctx literal u = .ok () ∧
        (Facet.bound .maxInclusive v).check type ctx literal u = .ok () := by
  obtain ⟨b, hb, hname, hhere, heast⟩ := validate_newYear
  have heq : (newYear 300).compare? (newYear 0) = some .eq := by decide
  exact ⟨b, hb, _, _, hname, heast, hhere, heq, by decide, fun _ _ _ => check_inclusive_iff.mpr heq⟩

end Value

end MarkupGrammar
