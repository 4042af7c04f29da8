import MarkupGrammar.Proofs.Path.Reading

/-! # Written paths are read again

The written form of a path is in the notation that is read, if names are in no namespace: a
namespace is written in braces, which are not part of the notation. So the written forms of the
paths of an expression, with bars between them, are read as the same paths exactly if the expression
has been written without prefixes, where names without a prefix are in no namespace
(`reads_written_iff`). -/

namespace MarkupGrammar

open Text Lexical

/-! ## Notation without prefixes -/

/-- The text is an expression whose names are without prefixes. -/
def PathExpression.UsesNoPrefix (s : String) : Prop :=
  ∃ paths, Written (fun _ => none) none s.toList paths

/-- The test is in no namespace; its written form is one of the notation. -/
structure NameTest.IsPlain (test : NameTest) : Prop where
  trimmed : IsTrimmed test.text.toList
  written : Written (fun _ => none) none test.text.toList test

namespace LocationPath

/-- The tests of a path on elements and on an attribute. -/
def tests (p : LocationPath) : List NameTest := p.steps ++ p.attribute?.toList

/-- The written form of a path in segments. -/
def segments (p : LocationPath) : List (List Char) :=
  if p.tests = [] then [['.']]
  else p.steps.map (·.text.toList) ++ p.attribute?.toList.map ('@' :: ·.text.toList)

end LocationPath

variable {space? space?' : String → Option String} {s : List Char} {test : NameTest}
  {tests : List NameTest} {attribute? : Option NameTest} {segments : List (List Char)}
  {p : LocationPath}

namespace NameTest

theorem Written.text_eq (h : Written (fun _ => none) none s test) : test.text.toList = s := by
  cases h with
  | any => rfl
  | space _ hspace => exact nomatch hspace
  | qualified _ _ hspace => exact nomatch hspace
  | unqualified hlocal => exact String.toList_ofList

theorem Written.of_noPrefix (h : Written (fun _ => none) none s test) :
    Written space? none s test := by
  cases h with
  | any => exact .any
  | space _ hspace => exact nomatch hspace
  | qualified _ _ hspace => exact nomatch hspace
  | unqualified hlocal => exact .unqualified hlocal

/-- A test with a prefix has a brace in its written form. -/
theorem Written.noPrefix (h : Written space? none s test) (hbrace : '\x7b' ∉ test.text.toList) :
    Written (fun _ => none) none s test := by
  cases h with
  | any => exact .any
  | space _ hspace => exact absurd (by simp [text, braced]) hbrace
  | qualified _ _ hspace => exact absurd (by simp [text, Name.text, Name.qualified, braced]) hbrace
  | unqualified hlocal => exact .unqualified hlocal

end NameTest

namespace LocationPath

theorem StepWritten.imp (h : StepWritten space? none s tests) (himp : ∀ s, ∀ test ∈ tests,
    NameTest.Written space? none s test → NameTest.Written space?' none s test) :
    StepWritten space?' none s tests := by
  cases h with
  | here => exact .here
  | self => exact .self
  | child h => exact .child (himp _ _ (.head _) h)
  | childAxis h => exact .childAxis (himp _ _ (.head _) h)

theorem AttributeWritten.imp (h : AttributeWritten space? s test) (himp : ∀ s,
    NameTest.Written space? none s test → NameTest.Written space?' none s test) :
    AttributeWritten space?' s test := by
  cases h with
  | sign h => exact .sign (himp _ h)
  | axis h => exact .axis (himp _ h)

theorem SegmentsWritten.imp (h : SegmentsWritten space? none segments tests attribute?)
    (himp : ∀ s, ∀ test ∈ tests ++ attribute?.toList,
      NameTest.Written space? none s test → NameTest.Written space?' none s test) :
    SegmentsWritten space?' none segments tests attribute? := by
  induction h with
  | nil => exact .nil
  | last h => exact .last (h.imp fun s => himp s _ (.head _))
  | step hs h ih =>
    rw [List.append_assoc] at himp
    have hstep := hs.imp fun s test htest => himp s test (List.mem_append_left _ htest)
    exact .step hstep (ih fun s test htest => himp s test (List.mem_append_right _ htest))

theorem Written.imp (h : Written space? none s p) (himp : ∀ s, ∀ test ∈ p.tests,
    NameTest.Written space? none s test → NameTest.Written space?' none s test) :
    Written space?' none s p := by
  obtain ⟨segments, hne, hs, h⟩ := h
  exact ⟨segments, hne, hs, h.imp himp⟩

theorem StepWritten.exists_written (h : StepWritten space? none s tests) (hs : IsTrimmed s)
    (htest : test ∈ tests) : ∃ t, IsTrimmed t ∧ NameTest.Written space? none t test := by
  cases h with
  | here => exact absurd htest List.not_mem_nil
  | self => exact absurd htest List.not_mem_nil
  | child h =>
    obtain rfl := List.mem_singleton.mp htest
    exact ⟨_, hs, h⟩
  | childAxis h =>
    obtain rfl := List.mem_singleton.mp htest
    exact ⟨_, isTrimmed_trimBlanks _, h⟩

theorem AttributeWritten.exists_written (h : AttributeWritten space? s test) :
    ∃ t, IsTrimmed t ∧ NameTest.Written space? none t test := by
  cases h with
  | sign h => exact ⟨_, isTrimmed_trimBlanks _, h⟩
  | axis h => exact ⟨_, isTrimmed_trimBlanks _, h⟩

/-- The tests of a path stand in texts without blanks around them. -/
theorem SegmentsWritten.exists_written (h : SegmentsWritten space? none segments tests attribute?) :
    ∀ test ∈ tests ++ attribute?.toList,
      ∃ t, IsTrimmed t ∧ NameTest.Written space? none t test := by
  induction h with
  | nil => exact fun test htest => absurd htest List.not_mem_nil
  | last h =>
    intro test htest
    obtain rfl := List.mem_singleton.mp htest
    exact h.exists_written
  | step hs h ih =>
    intro test htest
    rw [List.append_assoc] at htest
    rcases List.mem_append.mp htest with htest | htest
    · exact hs.exists_written (isTrimmed_trimBlanks _) htest
    · exact ih test htest

/-! ## Written forms -/

theorem segments_ne_nil (p : LocationPath) : p.segments ≠ [] := by
  unfold segments
  split
  · exact List.cons_ne_nil _ _
  · rename_i htests
    simpa [tests] using htests

theorem text_toList (p : LocationPath) : p.text.toList =
    (if p.descendant then ['.', '/', '/'] else ['.', '/']) ++ ['/'].intercalate p.segments := by
  obtain ⟨descendant, steps, attribute?⟩ := p
  have hmark : (if descendant then ".//" else "./" : String).toList =
      if descendant then ['.', '/', '/'] else ['.', '/'] := by cases descendant <;> rfl
  have hsep : "/".toList = ['/'] := rfl
  rw [text, String.toList_append, hmark, Text.joined, String.toList_intercalate, hsep, segments,
    tests]
  congr 2
  cases attribute? with
  | none => cases steps <;> simp
  | some test => simp

theorem segmentsWritten_tests (h : ∀ test ∈ tests ++ attribute?.toList, test.IsPlain) :
    SegmentsWritten (fun _ => none) none
      (tests.map (·.text.toList) ++ attribute?.toList.map ('@' :: ·.text.toList)) tests
      attribute? := by
  induction tests with
  | nil =>
    cases attribute? with
    | none => exact .nil
    | some test =>
      obtain ⟨htrimmed, hwritten⟩ := h test (.head _)
      have hsign : IsTrimmed ('@' :: test.text.toList) :=
        (isTrimmed_singleton (by decide)).append htrimmed
      refine .last ?_
      rw [hsign.trimBlanks_eq]
      exact .sign (htrimmed.trimBlanks_eq.symm ▸ hwritten)
  | cons test tests ih =>
    obtain ⟨⟨htrimmed, hwritten⟩, htests⟩ := List.forall_mem_cons.mp h
    have hstep : StepWritten (fun _ => none) none (trimBlanks test.text.toList) [test] :=
      htrimmed.trimBlanks_eq.symm ▸ .child hwritten
    exact .step hstep (ih htests)

theorem segmentsWritten_segments (h : ∀ test ∈ p.tests, test.IsPlain) :
    SegmentsWritten (fun _ => none) none p.segments p.steps p.attribute? := by
  unfold segments
  split
  · rename_i htests
    obtain ⟨hsteps, ha⟩ := List.append_eq_nil_iff.mp htests
    have hhere : StepWritten (fun _ => none) none (trimBlanks ['.']) [] := .here
    rw [hsteps, Option.toList_eq_nil_iff.mp ha]
    exact .step hhere .nil
  · exact segmentsWritten_tests h

theorem isTrimmed_segments (h : ∀ test ∈ p.tests, test.IsPlain) :
    ∀ s ∈ p.segments, IsTrimmed s := by
  unfold segments
  split
  · exact fun s hs => List.mem_singleton.mp hs ▸ isTrimmed_singleton (by decide)
  · intro s hs
    rcases List.mem_append.mp hs with hs | hs
    · obtain ⟨test, htest, rfl⟩ := List.mem_map.mp hs
      exact (h test (List.mem_append_left _ htest)).trimmed
    · obtain ⟨test, htest, rfl⟩ := List.mem_map.mp hs
      have hplain := h test (List.mem_append_right _ htest)
      exact (isTrimmed_singleton (by decide)).append hplain.trimmed

theorem written_text (h : ∀ test ∈ p.tests, test.IsPlain) :
    Written (fun _ => none) none p.text.toList p := by
  have hslash : IsTrimmed ['/'] := isTrimmed_singleton (by decide)
  have hdot : IsTrimmed ['.'] := isTrimmed_singleton (by decide)
  have hsegments := isTrimmed_intercalate (c := '/') (by decide) (isTrimmed_segments h)
  rw [Written, text_toList]
  cases hd : p.descendant with
  | true =>
    refine ⟨p.segments, segments_ne_nil p, ?_, segmentsWritten_segments h⟩
    exact ((hdot.append hslash).append hslash |>.append hsegments).trimBlanks_eq
  | false =>
    have hhere : StepWritten (fun _ => none) none (trimBlanks ['.']) [] := .here
    refine ⟨['.'] :: p.segments, List.cons_ne_nil _ _, ?_,
      .step hhere (segmentsWritten_segments h)⟩
    rw [List.intercalate_cons_of_ne_nil (segments_ne_nil p)]
    exact ((hdot.append hslash).append hsegments).trimBlanks_eq

/-- The written form of a path has those of its tests in it. -/
theorem mem_text {c : Char} (htest : test ∈ p.tests) (hc : c ∈ test.text.toList) :
    c ∈ p.text.toList := by
  obtain ⟨s, hs, hc⟩ : ∃ s ∈ p.segments, c ∈ s := by
    rw [segments, if_neg (List.ne_nil_of_mem htest)]
    rcases List.mem_append.mp htest with htest | htest
    · exact ⟨_, List.mem_append_left _ (List.mem_map_of_mem htest), hc⟩
    · exact ⟨_, List.mem_append_right _ (List.mem_map_of_mem htest), .tail _ hc⟩
  rw [text_toList]
  exact List.mem_append_right _ (mem_intercalate_of_mem hs hc)

end LocationPath

namespace PathExpression

variable {b : Bindings} {paths : List LocationPath} {source : String} {e : PathExpression}

theorem Written.imp (h : Written space? none s paths) (himp : ∀ p ∈ paths, ∀ s, ∀ test ∈ p.tests,
    NameTest.Written space? none s test → NameTest.Written space?' none s test) :
    Written space?' none s paths := by
  obtain ⟨members, hne, hs, h⟩ := h
  refine ⟨members, hne, hs, ?_⟩
  clear hs hne
  induction h with
  | nil => exact .nil
  | cons hp _ ih =>
    obtain ⟨himp, hpaths⟩ := List.forall_mem_cons.mp himp
    exact .cons (hp.imp himp) (ih hpaths)

theorem Written.isPlain (h : Written (fun _ => none) none s paths) :
    ∀ p ∈ paths, ∀ test ∈ p.tests, test.IsPlain := by
  obtain ⟨members, -, -, h⟩ := h
  induction h with
  | nil => exact fun p hp => absurd hp List.not_mem_nil
  | cons hp _ ih =>
    refine List.forall_mem_cons.mpr ⟨fun test htest => ?_, ih⟩
    obtain ⟨segments, -, -, hsegments⟩ := hp
    obtain ⟨s, htrimmed, hwritten⟩ := hsegments.exists_written test htest
    obtain rfl := hwritten.text_eq
    exact ⟨htrimmed, hwritten⟩

theorem joined_toList (paths : List LocationPath) :
    (Text.joined "|" (paths.map LocationPath.text)).toList =
      ['|'].intercalate (paths.map (·.text.toList)) := by
  rw [Text.joined, String.toList_intercalate, List.map_map]
  rfl

/-- The written forms of paths without namespaces are in the notation. -/
theorem written_joined (hne : paths ≠ []) (h : ∀ p ∈ paths, ∀ test ∈ p.tests, test.IsPlain) :
    Written (fun _ => none) none (Text.joined "|" (paths.map LocationPath.text)).toList paths := by
  refine ⟨_, ?_, joined_toList paths, ?_⟩
  · simpa using hne
  · rw [List.forall₂_map_left_iff, List.forall₂_same]
    exact fun p hp => LocationPath.written_text (h p hp)

/-- Where the written forms of paths are in the notation, those of the tests have no braces. -/
theorem brace_not_mem
    (h : Written space? none (Text.joined "|" (paths.map LocationPath.text)).toList paths) :
    ∀ p ∈ paths, ∀ test ∈ p.tests, '\x7b' ∉ test.text.toList := by
  intro p hp test htest hbrace
  have hmem : '\x7b' ∈ ['|'].intercalate (paths.map (·.text.toList)) :=
    mem_intercalate_of_mem (List.mem_map_of_mem hp) (LocationPath.mem_text htest hbrace)
  rw [← joined_toList] at hmem
  exact h.brace_not_mem hmem

/-- **Written paths are read again**, as the same paths, if names without prefixes are in no
namespace and no name has a prefix; with a prefix they are not. -/
theorem reads_written_iff (hb : b.unprefixed = none) (h : read b .field source = .ok e) :
    (∃ e', read b .field (Text.joined "|" (e.paths.map LocationPath.text)) = .ok e' ∧
      e'.paths = e.paths) ↔ UsesNoPrefix source := by
  obtain ⟨-, hw, -⟩ := read_eq_ok_iff.mp h
  rw [hb] at hw
  constructor
  · rintro ⟨e', hread, heq⟩
    obtain ⟨-, hw', -⟩ := read_eq_ok_iff.mp hread
    rw [hb, heq] at hw'
    have hbrace := brace_not_mem hw'
    exact ⟨e.paths, hw.imp fun p hp s test htest ht => ht.noPrefix (hbrace p hp test htest)⟩
  · rintro ⟨paths, hpaths⟩
    have hread : read b .field source = .ok ⟨source, paths⟩ :=
      read_eq_ok_iff.mpr ⟨rfl, hb ▸ hpaths.imp fun _ _ _ _ _ ht => ht.of_noPrefix, nofun⟩
    obtain rfl := Except.ok.inj (h.symm.trans hread)
    have hjoined := written_joined hpaths.ne_nil hpaths.isPlain
    exact ⟨⟨_, paths⟩,
      read_eq_ok_iff.mpr ⟨rfl, hb ▸ hjoined.imp fun _ _ _ _ _ ht => ht.of_noPrefix, nofun⟩, rfl⟩

theorem usesNoPrefix_part : read {} .field ".//part/@id | ." = .ok ⟨".//part/@id | .",
      [⟨true, [.name ⟨none, "part"⟩], some (.name ⟨none, "id"⟩)⟩, ⟨false, [], none⟩]⟩ ∧
    UsesNoPrefix ".//part/@id | ." := by
  have hread : read {} .field ".//part/@id | ." = .ok ⟨".//part/@id | .",
      [⟨true, [.name ⟨none, "part"⟩], some (.name ⟨none, "id"⟩)⟩, ⟨false, [], none⟩]⟩ := rfl
  exact ⟨hread, (reads_written_iff rfl hread).mp ⟨⟨".//part/@id|./.", _⟩, rfl, rfl⟩⟩

end PathExpression

end MarkupGrammar
