import MarkupGrammar.Overlap

/-! # Overlaps and names

Without a comparator two leaves overlap if and only if they match a name in common
(`overlaps_none_iff`). With one, a leaf *fits* a name if it matches it or if the two are related;
leaves that fit a name in common need not overlap then. -/

namespace MarkupGrammar

namespace Wildcard

/-- A namespace other than two given ones. -/
theorem exists_space_ne (a b : Option String) : ∃ s : Option String, a ≠ s ∧ b ≠ s := by
  by_cases h₀ : a ≠ none ∧ b ≠ none
  · exact ⟨none, h₀⟩
  by_cases h₁ : a ≠ some "" ∧ b ≠ some ""
  · exact ⟨some "", h₁⟩
  refine ⟨some "a", ?_⟩
  grind

theorem Range.overlaps_comm (a b : Range) : a.overlaps b = b.overlaps a := by
  cases a <;> cases b <;> simp [Range.overlaps, BEq.comm]

theorem Range.overlaps_self (a : Range) : a.overlaps a = true := by
  cases a <;> simp [Range.overlaps]

/-- Two ranges overlap if they have a namespace in common. -/
theorem Range.overlaps_iff (a b : Range) :
    a.overlaps b = true ↔ ∃ s, a.contains s = true ∧ b.contains s = true := by
  cases a with
  | any =>
    cases b with
    | any => simp [Range.overlaps, Range.contains]
    | only y => simp [Range.overlaps, Range.contains]
    | other y =>
      obtain ⟨s, h, -⟩ := exists_space_ne y y
      simpa [Range.overlaps, Range.contains] using ⟨s, h⟩
  | only x =>
    cases b with
    | any => simp [Range.overlaps, Range.contains]
    | only y => simp [Range.overlaps, Range.contains, eq_comm (a := x)]
    | other y => simp [Range.overlaps, Range.contains, eq_comm (a := x)]
  | other x =>
    cases b with
    | any =>
      obtain ⟨s, h, -⟩ := exists_space_ne x x
      simpa [Range.overlaps, Range.contains] using ⟨s, h⟩
    | only y => simp [Range.overlaps, Range.contains, eq_comm (a := y)]
    | other y =>
      obtain ⟨s, h, h'⟩ := exists_space_ne x y
      simpa [Range.overlaps, Range.contains] using ⟨s, h, h'⟩

/-- Without a comparator a wildcard overlaps an element that it allows. -/
theorem overlapsElement_none (w : Wildcard) (n : Name) :
    w.overlapsElement none n = w.allows n := by
  obtain ⟨range, _⟩ := w
  cases range <;> simp [overlapsElement, allows, Range.contains, Comparator.reachesSpace,
    Name.isIn, BEq.comm, bne]

end Wildcard

namespace Leaf

variable {c : Option Comparator}

theorem overlaps_comm (c : Option Comparator) (a b : Leaf) : a.overlaps c b = b.overlaps c a := by
  cases a with
  | element x =>
    cases b with
    | element y =>
      simp only [Leaf.overlaps]
      rw [BEq.comm, Bool.or_assoc, Bool.or_assoc, Bool.or_comm (Comparator.isRelated c x y)]
    | wildcard w => rfl
  | wildcard v =>
    cases b with
    | element y => rfl
    | wildcard w => exact v.range.overlaps_comm w.range

theorem overlaps_self (c : Option Comparator) (a : Leaf) : a.overlaps c a = true := by
  cases a with
  | element x => simp [Leaf.overlaps]
  | wildcard w => exact w.range.overlaps_self

/-- The leaf matches the name or is related to it. -/
def fits (c : Option Comparator) : Leaf → Name → Prop
  | .element x, n => x = n ∨ Comparator.isRelated c x n
  | .wildcard w, n => w.allows n

theorem fits_none (l : Leaf) (n : Name) : l.fits none n ↔ l.accepts n := by
  cases l <;> simp [fits, accepts, Comparator.isRelated]

theorem fits_of_accepts {l : Leaf} {n : Name} (h : l.accepts n) : l.fits c n := by
  cases l with
  | element x => exact .inl (by simpa [accepts] using h)
  | wildcard w => exact h

/-- Every leaf matches some name. -/
theorem exists_accepts (l : Leaf) : ∃ n, l.accepts n := by
  cases l with
  | element x => exact ⟨x, by simp [accepts]⟩
  | wildcard w =>
    obtain ⟨s, h, -⟩ := (Wildcard.Range.overlaps_iff w.range w.range).mp w.range.overlaps_self
    exact ⟨⟨s, ""⟩, h⟩

/-- **Without a comparator leaves overlap if they match a name in common.** -/
theorem overlaps_none_iff (a b : Leaf) :
    a.overlaps none b = true ↔ ∃ n, a.accepts n ∧ b.accepts n := by
  cases a with
  | element x =>
    cases b with
    | element y => simp [Leaf.overlaps, accepts, Comparator.isRelated, eq_comm (a := y)]
    | wildcard w =>
      have h := w.overlapsElement_none x
      simpa [Leaf.overlaps, accepts] using h
  | wildcard v =>
    cases b with
    | element y =>
      have h := v.overlapsElement_none y
      simpa [Leaf.overlaps, accepts] using h
    | wildcard w =>
      simp only [Leaf.overlaps, accepts, Wildcard.allows, Wildcard.Range.overlaps_iff]
      constructor
      · rintro ⟨s, h, h'⟩
        exact ⟨⟨s, ""⟩, h, h'⟩
      · rintro ⟨n, h, h'⟩
        exact ⟨n.space, h, h'⟩

/-- **Overlap is a name in common, and symmetric.** With a comparator the order of two leaves makes
no difference, whatever it answers to a question and the reversed one, and whether it answers. -/
theorem overlaps_none_iff_and_comm :
    (∀ a b : Leaf, a.overlaps none b ↔ ∃ n, a.accepts n ∧ b.accepts n) ∧
      ∀ (c : Comparator) (a b : Leaf), a.overlaps (some c) b = b.overlaps (some c) a :=
  ⟨overlaps_none_iff, fun c => overlaps_comm (some c)⟩

/-- An absent namespace and an empty one differ. -/
example : Leaf.overlaps none (.wildcard ⟨.only none, .strict⟩) (.wildcard ⟨.only (some ""), .lax⟩) =
    false := by
  decide

end Leaf

end MarkupGrammar
