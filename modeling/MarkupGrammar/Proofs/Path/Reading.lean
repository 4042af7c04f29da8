import MarkupGrammar.Path.Reader
import MarkupGrammar.Proofs.Outcome
import MarkupGrammar.Proofs.Path.Notation

/-! # Reading follows the notation

A text is read exactly if it is written in the notation of paths, and what is read is what it
stands for. Each part of the reader has its lemma: a name test (`readTest_eq_ok_iff`), a segment
(`readSteps_step`, `readSteps_last` and, the other way round, `of_readSteps_cons`), the segments of
a path, a path, and an expression. A reader of selectors differs from one of fields in nothing but
that it takes no test on an attribute. -/

namespace MarkupGrammar.PathExpression

open Text Lexical LocationPath

variable {b : Bindings} {role : Role} {isAttribute isFirst : Bool} {s : List Char}
  {whole : String} {rest : List Char} {path p : LocationPath} {test : NameTest}
  {tests : List NameTest} {segments : List (List Char)}

/-! ## Name tests -/

theorem spaceOf_eq_ok_iff {label : List Char} {space : String} :
    spaceOf b label = .ok space ↔ b.space? (String.ofList label) = some space := by
  rw [spaceOf]
  cases b.space? (String.ofList label) <;> simp

theorem before?_eq_some_iff {ending t : List Char} :
    before? ending s = some t ↔ s = t ++ ending := by
  rw [before?, Option.map_eq_some_iff]
  constructor
  · rintro ⟨r, hr, rfl⟩
    rw [← List.reverse_inj, after?_eq_some_iff.mp hr, List.reverse_append, List.reverse_reverse]
  · rintro rfl
    exact ⟨t.reverse, after?_eq_some_iff.mpr (List.reverse_append ..), List.reverse_reverse t⟩

theorem ne_star (h : '*' ∉ s) : s ≠ ['*'] :=
  fun hs => h (hs ▸ .head _)

theorem before?_star (h : '*' ∉ s) : before? [':', '*'] s = none := by
  refine Option.eq_none_iff_forall_ne_some.mpr fun t ht => h ?_
  rw [before?_eq_some_iff.mp ht]
  simp

/-- A test is tried as a star, as a prefix with a star and as a name, in this order. The forms
exclude each other by the colons and stars in them. -/
theorem readTest_eq_ok_iff : readTest b isAttribute s = .ok test ↔
    NameTest.Written b.space? (if isAttribute then none else b.unprefixed) s test := by
  constructor
  · intro h
    rw [readTest] at h
    split at h
    · rename_i hs
      obtain rfl := Except.ok.inj h
      exact hs ▸ .any
    · split at h
      · rename_i label hlabel
        obtain rfl := before?_eq_some_iff.mp hlabel
        split at h
        · rename_i huncolonized
          obtain ⟨space, hspace, rfl⟩ := of_map_eq_ok h
          exact .space huncolonized (spaceOf_eq_ok_iff.mp hspace)
        · exact nomatch h
      · split at h
        · exact nomatch h
        · rename_i hqualified
          rw [Bool.not_eq_true', Bool.not_eq_false, isQualified] at hqualified
          split at h
          · rename_i label localPart hcut
            rw [hcut, Bool.and_eq_true] at hqualified
            obtain ⟨space, hspace, rfl⟩ := of_map_eq_ok h
            obtain ⟨rfl, -⟩ := cut_eq_some_iff.mp hcut
            exact .qualified hqualified.1 hqualified.2 (spaceOf_eq_ok_iff.mp hspace)
          · rename_i hcut
            rw [hcut] at hqualified
            obtain rfl := Except.ok.inj h
            exact .unqualified hqualified
  · intro h
    rw [readTest]
    cases h with
    | any => rfl
    | @space label space hlabel hspace =>
      have hne : label ++ [':', '*'] ≠ ['*'] := fun h => by simpa using congrArg List.length h
      rw [if_neg hne, before?_eq_some_iff.mpr rfl]
      dsimp only
      rw [if_pos hlabel, spaceOf_eq_ok_iff.mpr hspace]
      rfl
    | @qualified label space localPart hlabel hlocal hspace =>
      have hcut : cut ':' (label ++ ':' :: localPart) = some (label, localPart) :=
        cut_eq_some_iff.mpr ⟨rfl, colon_not_mem hlabel⟩
      have hstar : '*' ∉ label ++ ':' :: localPart := by
        simp [star_not_mem hlabel, star_not_mem hlocal]
      rw [if_neg (ne_star hstar), before?_star hstar]
      dsimp only
      rw [isQualified, hcut]
      simp only [hlabel, hlocal, spaceOf_eq_ok_iff.mpr hspace]
      rfl
    | unqualified hlocal =>
      have hstar := star_not_mem hlocal
      rw [if_neg (ne_star hstar), before?_star hstar]
      dsimp only
      rw [isQualified, cut_eq_none_iff.mpr (colon_not_mem hlocal)]
      simp only [hlocal]
      rfl

/-! ## Segments

The segments of a path come trimmed to the reader. -/

theorem attributeName?_eq_some_iff {name : List Char} : attributeName? s = some name ↔
    s = '@' :: name ∨ s = "attribute::".toList ++ name := by
  unfold attributeName?
  split
  · rename_i name'
    simp
  · rename_i hsign
    rw [after?_eq_some_iff]
    exact ⟨.inr, fun h => h.resolve_left fun h => hsign name h⟩

/-- What has the colons of an axis is no name test. -/
theorem ne_of_written {u : Option String} (h : NameTest.Written b.space? u s test)
    (t mark rest : List Char) (hmark : 2 ≤ mark.count ':') : s ≠ t ++ mark ++ rest := by
  rintro rfl
  have hcount := h.count_colon_le
  rw [List.count_append, List.count_append] at hcount
  omega

theorem cutAt_colons {u : Option String} (h : NameTest.Written b.space? u s test) :
    cutAt [':', ':'] s = none := by
  refine Option.eq_none_iff_forall_ne_some.mpr fun ⟨t, rest⟩ ht => ?_
  exact ne_of_written h t _ rest (by decide) (eq_of_cutAt ht)

theorem attributeName?_eq_none {u : Option String} (h : NameTest.Written b.space? u s test) :
    attributeName? s = none := by
  refine Option.eq_none_iff_forall_ne_some.mpr fun name hname => ?_
  rcases attributeName?_eq_some_iff.mp hname with hs | hs
  · obtain ⟨c, r, hr, hc⟩ := h.exists_cons
    obtain ⟨rfl, -⟩ := List.cons.inj (hr.symm.trans hs)
    exact absurd hc (by decide)
  · exact ne_of_written h [] _ name (by decide) hs

theorem readSteps_step (h : StepWritten b.space? b.unprefixed s tests) (hs : trimBlanks s = s)
    (steps : List (List Char)) : readSteps b role whole rest isFirst path (s :: steps) =
      readSteps b role whole rest false { path with steps := path.steps ++ tests } steps := by
  have hne : s.isEmpty = false := List.isEmpty_eq_false_iff.mpr h.ne_nil
  rw [readSteps, hne, if_neg Bool.false_ne_true]
  cases h with
  | here => simp
  | self => simp
  | @child _ test h =>
    have hhere : s ≠ ['.'] := by
      obtain ⟨c, r, rfl, hc⟩ := h.exists_cons
      rintro heq
      obtain ⟨rfl, -⟩ := List.cons.inj heq
      exact absurd hc (by decide)
    have hself : s ≠ "self::node()".toList :=
      ne_of_written h [] "self::node()".toList [] (by decide)
    have hchild : after? "child::".toList s = none :=
      Option.eq_none_iff_forall_ne_some.mpr fun r hr =>
        ne_of_written h [] _ r (by decide) (after?_eq_some_iff.mp hr)
    rw [if_neg (not_or_intro hhere hself), attributeName?_eq_none h]
    dsimp only
    rw [hchild, Option.getD_none, hs, cutAt_colons h]
    dsimp only
    rw [readTest_eq_ok_iff.mpr h]
  | @childAxis s test h =>
    have hhere : "child::".toList ++ s ≠ ['.'] := by simp
    have hself : "child::".toList ++ s ≠ "self::node()".toList := by simp
    have hname : attributeName? ("child::".toList ++ s) = none := rfl
    rw [if_neg (not_or_intro hhere hself), hname]
    dsimp only
    rw [after?_eq_some_iff.mpr rfl, Option.getD_some, cutAt_colons h]
    dsimp only
    rw [readTest_eq_ok_iff.mpr h]

theorem readSteps_last (h : AttributeWritten b.space? s test) :
    readSteps b .field whole rest isFirst path [s] = .ok { path with attribute? := some test } := by
  obtain ⟨name, hname, hw⟩ : ∃ name, attributeName? s = some name ∧
      NameTest.Written b.space? none (trimBlanks name) test := by
    cases h with
    | sign h => exact ⟨_, rfl, h⟩
    | axis h => exact ⟨_, attributeName?_eq_some_iff.mpr (.inr rfl), h⟩
  have hself : ¬(s = ['.'] ∨ s = "self::node()".toList) := by
    rintro (rfl | rfl) <;> exact nomatch hname
  have hne : s.isEmpty = false := List.isEmpty_eq_false_iff.mpr h.ne_nil
  rw [readSteps, hne, if_neg Bool.false_ne_true, if_neg hself, hname]
  dsimp only
  rw [if_neg (nomatch ·), if_neg (by simp), readTest_eq_ok_iff.mpr hw]

/-- A segment that is read is a step, or ends a field with a test on an attribute. -/
theorem of_readSteps_cons (hs : trimBlanks s = s) {steps : List (List Char)}
    (h : readSteps b role whole rest isFirst path (s :: steps) = .ok p) :
    (∃ tests, StepWritten b.space? b.unprefixed s tests ∧
      readSteps b role whole rest false { path with steps := path.steps ++ tests } steps = .ok p) ∨
    ∃ test, AttributeWritten b.space? s test ∧ steps = [] ∧ role = .field ∧
      p = { path with attribute? := some test } := by
  rw [readSteps] at h
  split at h
  · exact nomatch h
  split at h
  · rename_i hself
    refine .inl ⟨[], ?_, by simpa using h⟩
    rcases hself with rfl | rfl
    · exact .here
    · exact .self
  split at h
  · rename_i name hname
    split at h
    · exact nomatch h
    rename_i hrole
    split at h
    · exact nomatch h
    rename_i hsteps
    split at h
    · rename_i test htest
      have hw : NameTest.Written b.space? none (trimBlanks name) test := readTest_eq_ok_iff.mp htest
      refine .inr ⟨test, ?_, by simpa using hsteps, ?_, (Except.ok.inj h).symm⟩
      · rcases attributeName?_eq_some_iff.mp hname with rfl | rfl
        · exact .sign hw
        · exact .axis hw
      · cases role with
        | selector => exact absurd rfl hrole
        | field => rfl
    · exact nomatch h
  · dsimp only at h
    split at h
    · exact nomatch h
    split at h
    · rename_i test htest
      refine .inl ⟨[test], ?_, h⟩
      have hw : NameTest.Written b.space? b.unprefixed _ test := readTest_eq_ok_iff.mp htest
      cases hchild : after? "child::".toList s with
      | some r =>
        rw [hchild, Option.getD_some] at hw
        exact after?_eq_some_iff.mp hchild ▸ .childAxis hw
      | none =>
        rw [hchild, Option.getD_none, hs] at hw
        exact .child hw
    · exact nomatch h

/-- **The segments of a path are read exactly if they are written in the notation.** -/
theorem readSteps_eq_ok_iff (hpath : path.attribute? = none) :
    readSteps b role whole rest isFirst path (segments.map trimBlanks) = .ok p ↔
      ∃ tests attribute?, SegmentsWritten b.space? b.unprefixed segments tests attribute? ∧
        (role = .selector → attribute? = none) ∧
        p = { path with steps := path.steps ++ tests, attribute? } := by
  constructor
  · intro h
    induction segments generalizing isFirst path with
    | nil =>
      obtain rfl := Except.ok.inj h
      refine ⟨[], none, .nil, fun _ => rfl, ?_⟩
      rw [← hpath, List.append_nil]
    | cons s segments ih =>
      rcases of_readSteps_cons (trimBlanks_trimBlanks s) h with
        ⟨tests, hstep, hrest⟩ | ⟨test, hlast, hnil, rfl, rfl⟩
      · have hpath' : { path with steps := path.steps ++ tests : LocationPath }.attribute? = none :=
          hpath
        obtain ⟨below, attribute?, hw, hrole, rfl⟩ := ih hpath' hrest
        exact ⟨tests ++ below, attribute?, .step hstep hw, hrole, by simp⟩
      · obtain rfl := List.map_eq_nil_iff.mp hnil
        exact ⟨[], some test, .last hlast, nofun, by simp⟩
  · rintro ⟨tests, attribute?, hw, hrole, rfl⟩
    induction hw generalizing isFirst path with
    | nil =>
      rw [List.map_nil, readSteps, List.append_nil, ← hpath]
    | last h =>
      cases role with
      | selector => exact nomatch hrole rfl
      | field => rw [List.map_singleton, readSteps_last h, List.append_nil]
    | step hs h ih =>
      rw [List.map_cons, readSteps_step hs (trimBlanks_trimBlanks _), ih, List.append_assoc]
      · exact hpath
      · exact hrole

/-! ## Paths -/

/-- A text without the mark of a descendant has no segments that begin with it. -/
theorem after?_descendant {attribute? : Option NameTest} (hne : segments ≠ [])
    (h : SegmentsWritten b.space? b.unprefixed segments tests attribute?) :
    after? ['.', '/', '/'] (['/'].intercalate segments) = none := by
  refine Option.eq_none_iff_forall_ne_some.mpr fun r hr => h.ne_nil ?_
  rw [← pieces_intercalate hne h.slash_not_mem, after?_eq_some_iff.mp hr]
  exact .tail _ (.head _)

/-- **A path is read exactly if it is written in the notation.** -/
theorem readPath_eq_ok_iff : readPath b role s = .ok p ↔
    LocationPath.Written b.space? b.unprefixed s p ∧ (role = .selector → p.attribute? = none) := by
  have hpieces := trimBlanks_pieces_dropBlanks (c := '/') (by decide)
  rw [readPath]
  dsimp only
  constructor
  · intro h
    split at h
    · exact nomatch h
    cases hmark : after? ['.', '/', '/'] (trimBlanks s) with
    | some r =>
      rw [hmark] at h
      dsimp only at h
      rw [hpieces, readSteps_eq_ok_iff rfl] at h
      obtain ⟨tests, attribute?, hw, hrole, rfl⟩ := h
      refine ⟨⟨pieces (· == '/') r, pieces_ne_nil '/' r, ?_, hw⟩, hrole⟩
      rw [intercalate_pieces]
      exact after?_eq_some_iff.mp hmark
    | none =>
      rw [hmark] at h
      dsimp only at h
      rw [readSteps_eq_ok_iff rfl] at h
      obtain ⟨tests, attribute?, hw, hrole, rfl⟩ := h
      refine ⟨⟨pieces (· == '/') (trimBlanks s), pieces_ne_nil '/' _, ?_, hw⟩, hrole⟩
      rw [intercalate_pieces]
      rfl
  · rintro ⟨⟨segments, hne, hs, hw⟩, hrole⟩
    obtain ⟨descendant, steps, attribute?⟩ := p
    have hsegments := pieces_intercalate hne hw.slash_not_mem
    rw [hs]
    cases descendant with
    | true =>
      rw [if_pos rfl, if_neg (by simp), after?_eq_some_iff.mpr rfl]
      dsimp only
      rw [hpieces, hsegments, readSteps_eq_ok_iff rfl]
      exact ⟨steps, attribute?, hw, hrole, rfl⟩
    | false =>
      have hsome : ¬(['/'].intercalate segments).isEmpty := by
        simpa using hw.intercalate_ne_nil hne
      rw [if_neg Bool.false_ne_true, List.nil_append, if_neg hsome, after?_descendant hne hw]
      dsimp only
      rw [hsegments, readSteps_eq_ok_iff rfl]
      exact ⟨steps, attribute?, hw, hrole, rfl⟩

/-! ## Expressions -/

theorem readPaths_eq_ok_iff {members : List (List Char)} {paths : List LocationPath} :
    members.mapM (readPath b role) = .ok paths ↔
      List.Forall₂ (LocationPath.Written b.space? b.unprefixed) members paths ∧
        (role = .selector → ∀ p ∈ paths, p.attribute? = none) := by
  simp only [mapM_eq_ok_iff, readPath_eq_ok_iff]
  constructor
  · intro h
    induction h with
    | nil => exact ⟨.nil, fun _ p hp => absurd hp List.not_mem_nil⟩
    | cons hp _ ih =>
      exact ⟨.cons hp.1 ih.1, fun hr => List.forall_mem_cons.mpr ⟨hp.2 hr, ih.2 hr⟩⟩
  · rintro ⟨h, hrole⟩
    induction h with
    | nil => exact .nil
    | cons hp _ ih =>
      exact .cons ⟨hp, fun hr => hrole hr _ (.head _)⟩ (ih fun hr q hq => hrole hr q (.tail _ hq))

theorem read_eq_ok_iff {source : String} {e : PathExpression} : read b role source = .ok e ↔
    e.source = source ∧ Written b.space? b.unprefixed source.toList e.paths ∧
      (role = .selector → ∀ p ∈ e.paths, p.attribute? = none) := by
  rw [read]
  constructor
  · intro h
    split at h
    · exact nomatch h
    · obtain ⟨paths, hpaths, rfl⟩ := of_map_eq_ok h
      obtain ⟨hw, hrole⟩ := readPaths_eq_ok_iff.mp hpaths
      exact ⟨rfl, ⟨_, pieces_ne_nil '|' _, (intercalate_pieces '|' _).symm, hw⟩, hrole⟩
  · obtain ⟨written, paths⟩ := e
    rintro ⟨hsource, ⟨members, hne, hs, hw⟩, hrole⟩
    obtain rfl : written = source := hsource
    have hmembers : pieces (· == '|') written.toList = members := by
      rw [hs]
      refine pieces_intercalate hne fun s hs => ?_
      obtain ⟨p, hp⟩ := exists_written_of_mem hw hs
      exact hp.bar_not_mem
    -- A blank text has one member, the text itself, and no member is blank.
    have hblank : ¬(trimBlanks written.toList).isEmpty := by
      intro hblank
      rw [List.isEmpty_iff] at hblank
      have hbar : '|' ∉ written.toList := fun hc => by
        rcases isBlank_or_mem_trimBlanks hc with hc | hc
        · exact absurd hc (by decide)
        · exact absurd (hblank ▸ hc) List.not_mem_nil
      have hsingle : pieces (· == '|') written.toList = [written.toList] := by
        simpa using pieces_intercalate (List.cons_ne_nil written.toList []) (by simpa using hbar)
      rw [← hmembers, hsingle] at hw
      cases hw with
      | cons hp _ => exact hp.trimBlanks_ne_nil hblank
    rw [if_neg hblank, hmembers, readPaths_eq_ok_iff.mpr ⟨hw, hrole⟩]
    rfl

/-- **An expression is read exactly if it is written in the notation, as what it stands for.** A
selector is an expression without tests on attributes. -/
theorem reads_exactly_written (b : Bindings) (source : String) (e : PathExpression) :
    (read b .field source = .ok e ↔
      e.source = source ∧ Written b.space? b.unprefixed source.toList e.paths) ∧
    (read b .selector source = .ok e ↔
      read b .field source = .ok e ∧ ∀ p ∈ e.paths, p.attribute? = none) := by
  simp [read_eq_ok_iff, and_assoc]

end MarkupGrammar.PathExpression
