import MarkupGrammar.Name.Lexical
import MarkupGrammar.Path
import MarkupGrammar.Proofs.Text.Cutting
import Mathlib.Data.List.Forall2

/-! # The notation of location paths

What a text has to look like to stand for a path, and for which one. The notation is given as a
relation between texts and what they stand for, one constructor for each of its forms; nothing is
said about the order in which a reader would try them. A text is split at bars into the members of a
union, a member at slashes into segments, and a segment is a step or, at the end, a test on an
attribute.

The namespaces of prefixes and that of element names without a prefix are parameters. The characters
of the notation are what keeps the levels apart: no segment has a slash and no member a bar
(`slash_not_mem`, `bar_not_mem`). -/

namespace MarkupGrammar

open Text Lexical

variable {space? : String → Option String} {unprefixed : Option String}

namespace NameTest

/-- The text is a name test: a star, a prefix with a star, or a name with or without a prefix. A
prefix has to be bound. -/
inductive Written (space? : String → Option String) (unprefixed : Option String) :
    List Char → NameTest → Prop
  | any : Written space? unprefixed ['*'] .any
  | space {label space} (hlabel : isUncolonized label)
      (hspace : space? (String.ofList label) = some space) :
      Written space? unprefixed (label ++ [':', '*']) (.space space)
  | qualified {label space localPart} (hlabel : isUncolonized label)
      (hlocal : isUncolonized localPart) (hspace : space? (String.ofList label) = some space) :
      Written space? unprefixed (label ++ ':' :: localPart)
        (.name (.qualified space (String.ofList localPart)))
  | unqualified {localPart} (hlocal : isUncolonized localPart) :
      Written space? unprefixed localPart (.name ⟨unprefixed, String.ofList localPart⟩)

end NameTest

namespace LocationPath

/-- The text is a step. Steps that stay at the element are without a test. -/
inductive StepWritten (space? : String → Option String) (unprefixed : Option String) :
    List Char → List NameTest → Prop
  | here : StepWritten space? unprefixed ['.'] []
  | self : StepWritten space? unprefixed "self::node()".toList []
  | child {s test} (h : NameTest.Written space? unprefixed s test) :
      StepWritten space? unprefixed s [test]
  | childAxis {s test} (h : NameTest.Written space? unprefixed (trimBlanks s) test) :
      StepWritten space? unprefixed ("child::".toList ++ s) [test]

/-- The text is a test on an attribute. Names of attributes without a prefix are in no namespace. -/
inductive AttributeWritten (space? : String → Option String) : List Char → NameTest → Prop
  | sign {s test} (h : NameTest.Written space? none (trimBlanks s) test) :
      AttributeWritten space? ('@' :: s) test
  | axis {s test} (h : NameTest.Written space? none (trimBlanks s) test) :
      AttributeWritten space? ("attribute::".toList ++ s) test

/-- The segments are, between blanks, steps with the tests in order; the last one may be a test on
an attribute instead. -/
inductive SegmentsWritten (space? : String → Option String) (unprefixed : Option String) :
    List (List Char) → List NameTest → Option NameTest → Prop
  | nil : SegmentsWritten space? unprefixed [] [] none
  | last {s test} (h : AttributeWritten space? (trimBlanks s) test) :
      SegmentsWritten space? unprefixed [s] [] (some test)
  | step {s segments tests below attribute?}
      (hs : StepWritten space? unprefixed (trimBlanks s) tests)
      (h : SegmentsWritten space? unprefixed segments below attribute?) :
      SegmentsWritten space? unprefixed (s :: segments) (tests ++ below) attribute?

/-- The text stands for the path: between blanks it has one or more segments, after the mark of a
path that may begin at any descendant. -/
def Written (space? : String → Option String) (unprefixed : Option String) (s : List Char)
    (p : LocationPath) : Prop :=
  ∃ segments ≠ [],
    trimBlanks s = (if p.descendant then ['.', '/', '/'] else []) ++ ['/'].intercalate segments ∧
      SegmentsWritten space? unprefixed segments p.steps p.attribute?

end LocationPath

/-- The text stands for the union of the paths. -/
def PathExpression.Written (space? : String → Option String) (unprefixed : Option String)
    (s : List Char) (paths : List LocationPath) : Prop :=
  ∃ members ≠ [], s = ['|'].intercalate members ∧
    List.Forall₂ (LocationPath.Written space? unprefixed) members paths

/-! ## The characters of names -/

section Names

variable {s : List Char} {c : Char}

theorem Lexical.isNameChar_of_isNameStart (h : isNameStart c) : isNameChar c := by
  rw [isNameStart, Bool.or_eq_true, beq_iff_eq] at h
  rcases h with h | rfl
  · simp [isNameChar, h]
  · decide

theorem Lexical.isNameChar_of_mem (h : isUncolonized s) (hc : c ∈ s) : isNameChar c := by
  cases s with
  | nil => exact absurd hc List.not_mem_nil
  | cons d s =>
    rw [isUncolonized, Bool.and_eq_true, List.all_eq_true] at h
    rcases List.mem_cons.mp hc with rfl | hc
    · exact isNameChar_of_isNameStart h.1
    · exact h.2 c hc

theorem Lexical.not_mem_of_isUncolonized (h : isUncolonized s) (hc : isNameChar c = false) :
    c ∉ s :=
  fun hmem => Bool.false_ne_true (hc.symm.trans (isNameChar_of_mem h hmem))

theorem Lexical.colon_not_mem (h : isUncolonized s) : ':' ∉ s :=
  not_mem_of_isUncolonized h (by decide)

theorem Lexical.star_not_mem (h : isUncolonized s) : '*' ∉ s :=
  not_mem_of_isUncolonized h (by decide)

theorem Lexical.exists_cons_of_isUncolonized (h : isUncolonized s) :
    ∃ c r, s = c :: r ∧ isNameStart c := by
  cases s with
  | nil => exact absurd h Bool.false_ne_true
  | cons c r =>
    rw [isUncolonized, Bool.and_eq_true] at h
    exact ⟨c, r, rfl, h.1⟩

end Names

/-! ## The characters of the notation -/

/-- The characters of a segment: blanks, those of names, and the signs of the notation. -/
def IsNotation (c : Char) : Prop := isBlank c ∨ isNameChar c ∨ c ∈ "*:@()".toList

section Characters

variable {s : List Char} {c : Char} {test : NameTest} {tests : List NameTest}
  {attribute? : Option NameTest} {segments : List (List Char)} {p : LocationPath}

theorem IsNotation.of_mem_trimBlanks (h : ∀ d ∈ trimBlanks s, IsNotation d) (hc : c ∈ s) :
    IsNotation c :=
  (isBlank_or_mem_trimBlanks hc).elim .inl (h c)

/-- The words of the notation are made up of its characters. -/
theorem IsNotation.of_all (h : s.all fun d => isNameChar d || "*:@()".toList.contains d)
    (hc : c ∈ s) : IsNotation c := by
  have hd := List.all_eq_true.mp h c hc
  rw [Bool.or_eq_true, List.contains_iff_mem] at hd
  exact .inr hd

namespace NameTest

variable (h : Written space? unprefixed s test)
include h

theorem Written.isNotation (hc : c ∈ s) : IsNotation c := by
  cases h with
  | any => exact .of_all (by decide) hc
  | space hlabel hspace =>
    rcases List.mem_append.mp hc with hc | hc
    · exact .inr (.inl (isNameChar_of_mem hlabel hc))
    · exact .of_all (by decide) hc
  | qualified hlabel hlocal hspace =>
    rcases List.mem_append.mp hc with hc | hc
    · exact .inr (.inl (isNameChar_of_mem hlabel hc))
    · rcases List.mem_cons.mp hc with rfl | hc
      · exact .inr (.inr (by decide))
      · exact .inr (.inl (isNameChar_of_mem hlocal hc))
  | unqualified hlocal => exact .inr (.inl (isNameChar_of_mem hlocal hc))

/-- A name test begins with a letter or is a star. -/
theorem Written.exists_cons : ∃ c r, s = c :: r ∧ (isNameStart c ∨ c = '*') := by
  cases h with
  | any => exact ⟨'*', [], rfl, .inr rfl⟩
  | space hlabel hspace =>
    obtain ⟨c, r, rfl, hc⟩ := exists_cons_of_isUncolonized hlabel
    exact ⟨c, _, rfl, .inl hc⟩
  | qualified hlabel hlocal hspace =>
    obtain ⟨c, r, rfl, hc⟩ := exists_cons_of_isUncolonized hlabel
    exact ⟨c, _, rfl, .inl hc⟩
  | unqualified hlocal =>
    obtain ⟨c, r, rfl, hc⟩ := exists_cons_of_isUncolonized hlocal
    exact ⟨c, r, rfl, .inl hc⟩

/-- The colons of an axis are not part of a name test. -/
theorem Written.count_colon_le : s.count ':' ≤ 1 := by
  cases h with
  | any => decide
  | space hlabel hspace =>
    rw [List.count_append, List.count_eq_zero_of_not_mem (colon_not_mem hlabel)]
    decide
  | qualified hlabel hlocal hspace =>
    rw [List.count_append, List.count_eq_zero_of_not_mem (colon_not_mem hlabel),
      List.count_cons_self, List.count_eq_zero_of_not_mem (colon_not_mem hlocal)]
  | unqualified hlocal =>
    rw [List.count_eq_zero_of_not_mem (colon_not_mem hlocal)]
    exact Nat.zero_le 1

end NameTest

namespace LocationPath

theorem StepWritten.isNotation (h : StepWritten space? unprefixed s tests) (hc : c ∈ s) :
    IsNotation c := by
  cases h with
  | here => exact .of_all (by decide) hc
  | self => exact .of_all (by decide) hc
  | child h => exact h.isNotation hc
  | childAxis h =>
    rcases List.mem_append.mp hc with hc | hc
    · exact .of_all (by decide) hc
    · exact .of_mem_trimBlanks (fun _ => h.isNotation) hc

theorem AttributeWritten.isNotation (h : AttributeWritten space? s test) (hc : c ∈ s) :
    IsNotation c := by
  cases h with
  | sign h =>
    rcases List.mem_cons.mp hc with rfl | hc
    · exact .inr (.inr (by decide))
    · exact .of_mem_trimBlanks (fun _ => h.isNotation) hc
  | axis h =>
    rcases List.mem_append.mp hc with hc | hc
    · exact .of_all (by decide) hc
    · exact .of_mem_trimBlanks (fun _ => h.isNotation) hc

theorem StepWritten.ne_nil (h : StepWritten space? unprefixed s tests) : s ≠ [] := by
  cases h with
  | here => exact List.cons_ne_nil _ _
  | self => decide
  | child h =>
    obtain ⟨c, r, rfl, -⟩ := h.exists_cons
    exact List.cons_ne_nil c r
  | childAxis h => exact List.append_ne_nil_of_left_ne_nil (by decide) _

theorem AttributeWritten.ne_nil (h : AttributeWritten space? s test) : s ≠ [] := by
  cases h with
  | sign h => exact List.cons_ne_nil _ _
  | axis h => exact List.append_ne_nil_of_left_ne_nil (by decide) _

namespace SegmentsWritten

variable (h : SegmentsWritten space? unprefixed segments tests attribute?)
include h

theorem isNotation : ∀ s ∈ segments, ∀ c ∈ s, IsNotation c := by
  induction h with
  | nil => exact fun s hs => absurd hs List.not_mem_nil
  | last h =>
    intro s hs c hc
    obtain rfl := List.mem_singleton.mp hs
    exact .of_mem_trimBlanks (fun _ => h.isNotation) hc
  | step hs h ih =>
    intro s' hs' c hc
    rcases List.mem_cons.mp hs' with rfl | hs'
    · exact .of_mem_trimBlanks (fun _ => hs.isNotation) hc
    · exact ih s' hs' c hc

theorem slash_not_mem : ∀ s ∈ segments, '/' ∉ s := by
  intro s hs hc
  rcases h.isNotation s hs _ hc with hc | hc | hc <;> exact absurd hc (by decide)

theorem ne_nil : [] ∉ segments := by
  induction h with
  | nil => exact List.not_mem_nil
  | last h =>
    intro hs
    obtain rfl := List.mem_singleton.mp hs
    exact h.ne_nil rfl
  | step hs h ih =>
    intro hmem
    rcases List.mem_cons.mp hmem with rfl | hmem
    · exact hs.ne_nil rfl
    · exact ih hmem

theorem intercalate_ne_nil (hne : segments ≠ []) : ['/'].intercalate segments ≠ [] := by
  intro hnil
  refine h.ne_nil ?_
  rw [← pieces_intercalate hne h.slash_not_mem, hnil]
  exact .head _

end SegmentsWritten

theorem Written.trimBlanks_ne_nil (h : Written space? unprefixed s p) : trimBlanks s ≠ [] := by
  obtain ⟨segments, hne, hs, h⟩ := h
  rw [hs]
  exact List.append_ne_nil_of_right_ne_nil _ (h.intercalate_ne_nil hne)

theorem Written.isNotation (h : Written space? unprefixed s p) (hc : c ∈ s) :
    c = '/' ∨ IsNotation c := by
  obtain ⟨segments, -, hs, h⟩ := h
  rcases isBlank_or_mem_trimBlanks hc with hc | hc
  · exact .inr (.inl hc)
  rw [hs, List.mem_append] at hc
  rcases hc with hc | hc
  · split at hc
    · rcases List.mem_cons.mp hc with rfl | hc
      · exact .inr (.inr (.inl (by decide)))
      · exact .inl ((or_self _).mp (List.mem_pair.mp hc))
    · exact absurd hc List.not_mem_nil
  · exact (mem_intercalate hc).imp_right fun ⟨t, ht, hc⟩ => h.isNotation t ht c hc

theorem Written.bar_not_mem (h : Written space? unprefixed s p) : '|' ∉ s := by
  intro hc
  rcases h.isNotation hc with hc | hc | hc | hc <;> exact absurd hc (by decide)

end LocationPath

namespace PathExpression

variable {paths : List LocationPath}

/-- A member of a union stands for one of its paths. -/
theorem exists_written_of_mem {members : List (List Char)}
    (h : List.Forall₂ (LocationPath.Written space? unprefixed) members paths) (hs : s ∈ members) :
    ∃ p, LocationPath.Written space? unprefixed s p := by
  induction h with
  | nil => exact absurd hs List.not_mem_nil
  | cons hp _ ih =>
    rcases List.mem_cons.mp hs with rfl | hs
    · exact ⟨_, hp⟩
    · exact ih hs

theorem Written.ne_nil (h : Written space? unprefixed s paths) : paths ≠ [] := by
  obtain ⟨members, hne, -, h⟩ := h
  rintro rfl
  exact hne (List.forall₂_nil_right_iff.mp h)

/-- Braces are not part of the notation. -/
theorem Written.brace_not_mem (h : Written space? unprefixed s paths) : '\x7b' ∉ s := by
  obtain ⟨members, -, rfl, h⟩ := h
  intro hc
  rcases mem_intercalate hc with hc | ⟨s, hs, hc⟩
  · exact absurd hc (by decide)
  · obtain ⟨p, hp⟩ := exists_written_of_mem h hs
    rcases hp.isNotation hc with hc | hc | hc | hc <;> exact absurd hc (by decide)

end PathExpression

end Characters

end MarkupGrammar
