import MarkupGrammar.Proofs.Outcome
import MarkupGrammar.Proofs.Text.Words
import MarkupGrammar.SimpleType
import Mathlib.Data.List.Destutter
import Mathlib.Order.Lattice

/-! # White space in simple types

The treatments of white space are ordered by strength: one after the other, they do what the
stronger one does alone (`normalize_normalize`). A type reads nothing else of a literal than what
its own treatment leaves of it (`validate_congr`), so it makes no difference if that treatment, or a
weaker one, has been done before (`validate_normalize`).

Collapsing can be said without words: of each run of spaces one is left, and none at the ends of the
text. Collapsing does this after every blank has become a space, also those that are no blanks of
markup. So what it makes of a text is the replaced text with its spaces squeezed exactly if the text
has no blanks but those of markup (`collapse_eq_squeeze_iff`). Characters that are no blanks stay in
any case, in their order. -/

namespace MarkupGrammar

/-! ## The strength of treatments -/

namespace Spacing

/-- How much a treatment changes. -/
def strength : Spacing → Nat
  | preserve => 0
  | replace => 1
  | collapse => 2

theorem strength_injective : Function.Injective strength := by
  intro w w' h
  cases w <;> cases w' <;> first | rfl | exact absurd h (by decide)

instance : LinearOrder Spacing := LinearOrder.lift' strength strength_injective

open Text

/-- Collapsing leaves nothing to replace. -/
theorem replace_collapse (s : String) :
    replace.normalize (collapse.normalize s) = collapse.normalize s := by
  have hchar : ∀ c ∈ (collapse.normalize s).toList,
      (if c == '\t' || c == '\n' || c == '\r' then ' ' else c) = c := by
    intro c hc
    rw [normalize, joined, String.toList_intercalate, map_toList_words] at hc
    rcases mem_intercalate hc with rfl | ⟨w, hw, hcw⟩
    · rfl
    · exact replaced_eq ((isWord_of_mem_wordLists hw).not_blank c hcw)
  rw [normalize, ← String.toList_inj, String.toList_map, List.map_congr_left hchar, List.map_id']

/-- **Of two treatments, one after the other, the stronger one counts.** -/
theorem normalize_normalize (w w' : Spacing) (s : String) :
    w'.normalize (w.normalize s) = (max w w').normalize s := by
  have hcollapse (w : Spacing) : collapse.normalize (w.normalize s) = collapse.normalize s :=
    congrArg (joined " ") (words_normalize w s)
  have hreplace : replace.normalize (replace.normalize s) = replace.normalize s := by
    rw [← String.toList_inj, normalize, normalize, String.toList_map, String.toList_map,
      List.map_map]
    refine List.map_congr_left fun c _ => ?_
    dsimp only [Function.comp]
    split <;> rfl
  cases w' with
  | preserve => cases w <;> rfl
  | replace =>
    cases w with
    | preserve => rfl
    | replace => exact hreplace
    | collapse => exact replace_collapse s
  | collapse => cases w <;> exact hcollapse _

theorem normalize_of_le {w w' : Spacing} (h : w ≤ w') (s : String) :
    w'.normalize (w.normalize s) = w'.normalize s := by
  rw [normalize_normalize, max_eq_right h]

end Spacing

/-! ## Treated literals -/

namespace SimpleType

variable {ctx : ValueContext} {s s' : String}

/-- A derived type accepts what its base can read and all facets let pass. -/
theorem validate_eq_ok_iff {d : Definition} {base : SimpleType} {v : Value} :
    (derived d base).validate ctx s = .ok v ↔
      readByBase (base.validate ctx) d.variety (d.spacing.normalize s) = .ok v ∧
      ∀ f ∈ d.facets, f.check d.name ctx (d.spacing.normalize s) v = .ok () := by
  rw [validate, ← forM_eq_ok_iff]
  constructor
  · intro h
    obtain ⟨v', hv, h⟩ := of_bind_eq_ok h
    obtain ⟨⟨⟩, hall, h⟩ := of_bind_eq_ok h
    obtain rfl := Except.ok.inj h
    exact ⟨hv, hall⟩
  · rintro ⟨hv, hall⟩
    rw [hv]
    change (d.facets.forM _ >>= fun _ => Except.ok v) = .ok v
    rw [hall]
    rfl

/-- Literals that a type treats alike have the same value, or the same fault. -/
theorem validate_congr {t : SimpleType} (h : t.spacing.normalize s = t.spacing.normalize s') :
    t.validate ctx s = t.validate ctx s' := by
  cases t with
  | builtin b =>
    have hb : b.spacing.normalize s = b.spacing.normalize s' := h
    rw [validate, validate, Builtin.validate, Builtin.validate, hb]
  | derived d base =>
    have hd : d.spacing.normalize s = d.spacing.normalize s' := h
    rw [validate, validate, hd]
  | orphan d => rfl

theorem value_eq_of_normalize_eq {t : SimpleType} {v v' : Value}
    (h : t.spacing.normalize s = t.spacing.normalize s') (hs : t.validate ctx s = .ok v)
    (hs' : t.validate ctx s' = .ok v') : v = v' := by
  rw [validate_congr h] at hs
  exact Except.ok.inj (hs.symm.trans hs')

/-- **Validation does not see what its treatment of white space undoes.** A literal has the same
value, or the same fault, after the treatment of its type as before it, and after any weaker one.
The treatments themselves change nothing a second time, and collapsing does not need a text to be
replaced before. -/
theorem validate_normalize (t : SimpleType) (ctx : ValueContext) (s : String) :
    t.validate ctx (t.spacing.normalize s) = t.validate ctx s ∧
    (∀ w ≤ t.spacing, t.validate ctx (w.normalize s) = t.validate ctx s) ∧
    (∀ w : Spacing, w.normalize (w.normalize s) = w.normalize s) ∧
    Spacing.collapse.normalize (Spacing.replace.normalize s) = Spacing.collapse.normalize s :=
  ⟨validate_congr (Spacing.normalize_of_le le_rfl s),
    fun _ hw => validate_congr (Spacing.normalize_of_le hw s),
    fun _ => Spacing.normalize_of_le le_rfl s,
    Spacing.normalize_of_le (by decide) s⟩

end SimpleType

/-! ## Squeezing -/

namespace Text

variable {c d : Char} {s w : List Char}

/-- Not both characters are spaces. -/
def NotSpaces (c d : Char) : Prop := ¬ (c = ' ' ∧ d = ' ')

instance : DecidableRel NotSpaces := fun c d => inferInstanceAs (Decidable (¬ (c = ' ' ∧ d = ' ')))

/-- The text with one space of each run of spaces. -/
def squeezed (s : List Char) : List Char := s.destutter NotSpaces

/-- The text without the spaces at its ends. -/
def stripped (s : List Char) : List Char := (s.rdropWhile (· == ' ')).dropWhile (· == ' ')

/-- The text with single spaces, and none at the ends. -/
def squeeze (s : String) : String := String.ofList (stripped (squeezed s.toList))

/-- A character, or a space for a blank. -/
def asSpace (c : Char) : Char := if isBlank c then ' ' else c

theorem filter_squeezed (s : List Char) : (squeezed s).filter (· != ' ') = s.filter (· != ' ') := by
  cases s with
  | nil => rfl
  | cons c s =>
    rw [squeezed, List.destutter_cons']
    induction s generalizing c with
    | nil => rfl
    | cons d s ih =>
      rw [List.destutter'_cons]
      split
      · rw [List.filter_cons, ih, List.filter_cons (x := c)]
      · rename_i hspaces
        obtain ⟨rfl, rfl⟩ := not_not.mp hspaces
        rw [ih]
        rfl

theorem filter_stripped (s : List Char) : (stripped s).filter (· != ' ') = s.filter (· != ' ') := by
  have hdrop (s : List Char) :
      (s.dropWhile (· == ' ')).filter (· != ' ') = s.filter (· != ' ') := by
    induction s with
    | nil => rfl
    | cons c s ih => by_cases hc : c = ' ' <;> simp [hc, ih]
  rw [stripped, hdrop, List.rdropWhile, List.filter_reverse, hdrop, List.filter_reverse,
    List.reverse_reverse]

theorem rdropWhile_cons (p : Char → Bool) (c : Char) (s : List Char) :
    (c :: s).rdropWhile p =
      if p c ∧ s.rdropWhile p = [] then [] else c :: s.rdropWhile p := by
  rw [List.rdropWhile, List.reverse_cons, List.dropWhile_append, List.rdropWhile]
  cases h : s.reverse.dropWhile p with
  | nil => by_cases hc : p c <;> simp [hc]
  | cons d t => simp

/-! ## Words with spaces between -/

theorem ne_space (hc : isBlank c = false) : c ≠ ' ' := by
  rintro rfl
  exact absurd hc (by decide)

theorem isWord_singleton (hc : isBlank c = false) : IsWord [c] :=
  ⟨List.cons_ne_nil _ _, by simpa using hc⟩

theorem wordLists_cons_blank (hc : isBlank c) (s : List Char) :
    wordLists (c :: s) = wordLists s := by
  rw [wordLists_eq, List.splitOnP_cons_eq_if_modifyHead, if_pos hc, wordLists_eq]
  rfl

/-- A character that is no blank begins the first word, or the one before the first word. -/
theorem exists_wordLists_cons (hd : isBlank d = false) (s : List Char) :
    ∃ w ws, wordLists (d :: s) = (d :: w) :: ws ∧
      ∀ c, isBlank c = false → wordLists (c :: d :: s) = (c :: d :: w) :: ws := by
  obtain ⟨w, ps, hps⟩ := List.exists_cons_of_ne_nil (List.splitOnP_ne_nil isBlank s)
  have hcons : (d :: s).splitOnP isBlank = (d :: w) :: ps := by
    rw [List.splitOnP_cons_eq_if_modifyHead, if_neg (by simp [hd]), hps, List.modifyHead_cons]
  refine ⟨w, ps.filter (!·.isEmpty), ?_, fun c hc => ?_⟩
  · rw [wordLists_eq, hcons]
    rfl
  · rw [wordLists_eq, List.splitOnP_cons_eq_if_modifyHead, if_neg (by simp [hc]), hcons]
    rfl

theorem intercalate_cons (w : List Char) (ws : List (List Char)) :
    [' '].intercalate (w :: ws) = w ++ ws.flatMap (' ' :: ·) := by
  induction ws generalizing w with
  | nil => simp
  | cons w' ws ih =>
    rw [List.intercalate_cons_cons, ih, List.flatMap_cons]
    simp

/-- What is left behind a space, and behind another character, if all blanks are spaces. -/
theorem rdropWhile_destutter' (h : ∀ c ∈ s, isBlank c → c = ' ') :
    (s.destutter' NotSpaces ' ').rdropWhile (· == ' ') = (wordLists s).flatMap (' ' :: ·) ∧
    ∀ c, isBlank c = false → (s.destutter' NotSpaces c).rdropWhile (· == ' ') =
      [' '].intercalate (wordLists (c :: s)) := by
  induction s with
  | nil =>
    refine ⟨rfl, fun c hc => ?_⟩
    rw [(isWord_singleton hc).wordLists_eq_singleton]
    simp [List.rdropWhile_singleton, ne_space hc]
  | cons d s ih =>
    obtain ⟨hd, hs⟩ := List.forall_mem_cons.mp h
    obtain ⟨ihSpace, ihOther⟩ := ih hs
    -- a space and another one, a space and another character, and so on
    by_cases hblank : isBlank d
    · obtain rfl := hd hblank
      refine ⟨?_, fun c hc => ?_⟩
      · rw [List.destutter'_cons_neg _ (by simp [NotSpaces]), ihSpace, wordLists_cons_blank hblank]
      · have hwords : wordLists (c :: ' ' :: s) = [c] :: wordLists s :=
          (isWord_singleton hc).wordLists_append hblank s
        rw [List.destutter'_cons_pos _ (by simp [NotSpaces, ne_space hc]), rdropWhile_cons,
          ihSpace, if_neg (by simp [ne_space hc]), hwords, intercalate_cons]
        rfl
    · rw [Bool.not_eq_true] at hblank
      obtain ⟨w, ws, hws, hcons⟩ := exists_wordLists_cons hblank s
      refine ⟨?_, fun c hc => ?_⟩
      · rw [List.destutter'_cons_pos _ (by simp [NotSpaces, ne_space hblank]), rdropWhile_cons,
          ihOther d hblank, hws, intercalate_cons, if_neg (by simp)]
        rfl
      · rw [List.destutter'_cons_pos _ (by simp [NotSpaces, ne_space hc]), rdropWhile_cons,
          ihOther d hblank, hws, hcons c hc, if_neg (by simp [ne_space hc]), intercalate_cons,
          intercalate_cons]
        rfl

theorem IsWord.dropWhile_append (hw : IsWord w) (s : List Char) :
    (w ++ s).dropWhile (· == ' ') = w ++ s := by
  obtain ⟨c, w, rfl⟩ := List.exists_cons_of_ne_nil hw.ne_nil
  have hc : c ≠ ' ' := ne_space (hw.not_blank c (.head _))
  exact List.dropWhile_cons_of_neg (by simp [hc])

/-- **Words with single spaces between them** are what squeezing leaves, if all blanks are
spaces. -/
theorem intercalate_wordLists (h : ∀ c ∈ s, isBlank c → c = ' ') :
    [' '].intercalate (wordLists s) = stripped (squeezed s) := by
  cases s with
  | nil => rfl
  | cons c s =>
    obtain ⟨hc, hs⟩ := List.forall_mem_cons.mp h
    obtain ⟨hspace, hother⟩ := rdropWhile_destutter' hs
    rw [stripped, squeezed, List.destutter_cons']
    by_cases hblank : isBlank c
    · obtain rfl := hc hblank
      rw [hspace, wordLists_cons_blank hblank]
      cases hws : wordLists s with
      | nil => rfl
      | cons w ws =>
        have hw : IsWord w := isWord_of_mem_wordLists (s := s) (hws ▸ List.mem_cons_self)
        rw [intercalate_cons, List.flatMap_cons, List.cons_append,
          List.dropWhile_cons_of_pos (by simp), hw.dropWhile_append]
    · rw [Bool.not_eq_true] at hblank
      obtain ⟨w, ws, hws, -⟩ := exists_wordLists_cons hblank s
      have hw : IsWord (c :: w) := isWord_of_mem_wordLists (s := c :: s) (hws ▸ List.mem_cons_self)
      rw [hother c hblank, hws, intercalate_cons, hw.dropWhile_append]

end Text

namespace Spacing

open Text

/-! ## Collapsing and squeezing -/

theorem isBlank_asSpace (c : Char) : isBlank (asSpace c) = isBlank c := by
  rw [asSpace]
  split
  · rename_i hc
    rw [hc]
    rfl
  · rfl

theorem asSpace_eq_self {c : Char} (hc : isBlank c = false) : asSpace c = c :=
  if_neg (by simp [hc])

theorem asSpace_eq_space {c : Char} (hc : isBlank (asSpace c)) : asSpace c = ' ' := by
  rw [isBlank_asSpace] at hc
  exact if_pos hc

/-- Collapsing squeezes the spaces after every blank has become one. -/
theorem collapse_eq_squeeze (s : String) : collapse.normalize s = squeeze (s.map asSpace) := by
  have hblanks : ∀ c ∈ s.toList.map asSpace, isBlank c → c = ' ' :=
    List.forall_mem_map.mpr fun c _ => asSpace_eq_space
  have hwords : wordLists (s.toList.map asSpace) = wordLists s.toList :=
    wordLists_map isBlank_asSpace (fun _ => asSpace_eq_self) s.toList
  have hcollapsed : (collapse.normalize s).toList = [' '].intercalate (wordLists s.toList) := by
    rw [normalize, joined, String.toList_intercalate, map_toList_words]
    rfl
  rw [← String.toList_inj, hcollapsed, squeeze, String.toList_ofList, String.toList_map,
    ← intercalate_wordLists hblanks, hwords]

/-- Squeezing takes nothing but spaces. -/
theorem filter_squeeze (p : Char → Bool) (hp : p ' ' = false) (s : String) :
    (squeeze s).toList.filter p = s.toList.filter p := by
  have hsplit (s : List Char) : s.filter p = (s.filter (· != ' ')).filter p := by
    rw [List.filter_filter]
    refine List.filter_congr fun c _ => ?_
    by_cases hc : c = ' ' <;> simp [hc, hp]
  rw [squeeze, String.toList_ofList, hsplit, filter_stripped, filter_squeezed, ← hsplit]

theorem replace_eq_map {s : String} (h : ∀ c ∈ s.toList, isBlank c → isMarkupBlank c) :
    replace.normalize s = s.map asSpace := by
  rw [← String.toList_inj, normalize, String.toList_map, String.toList_map]
  refine List.map_congr_left fun c hc => ?_
  by_cases hblank : isBlank c
  · have hmarkup := h c hc hblank
    rw [asSpace, if_pos hblank]
    simp only [isMarkupBlank, Bool.or_eq_true, beq_iff_eq] at hmarkup
    obtain ((rfl | rfl) | rfl) | rfl := hmarkup <;> rfl
  · rw [Bool.not_eq_true] at hblank
    rw [asSpace_eq_self hblank, replaced_eq hblank]

theorem mem_replace {s : String} {c : Char} (hc : c ∈ s.toList) (h : isMarkupBlank c = false) :
    c ∈ (replace.normalize s).toList := by
  rw [normalize, String.toList_map]
  refine List.mem_map.mpr ⟨c, hc, if_neg fun hor => ?_⟩
  simp only [Bool.or_eq_true, beq_iff_eq] at hor
  obtain (rfl | rfl) | rfl := hor <;> exact absurd h (by decide)

/-- **Collapsing and squeezing.** Collapsing squeezes the spaces after every blank has become one,
and keeps all other characters in order. It does the same as squeezing the spaces after replacing
exactly if there are no blanks in the text but those of markup. -/
theorem collapse_eq_squeeze_iff (s : String) :
    collapse.normalize s = squeeze (s.map asSpace) ∧
    (collapse.normalize s).toList.filter (!isBlank ·) = s.toList.filter (!isBlank ·) ∧
    (collapse.normalize s = squeeze (replace.normalize s) ↔
      ∀ c ∈ s.toList, isBlank c → isMarkupBlank c) := by
  refine ⟨collapse_eq_squeeze s, ?_, fun heq c hc hblank => ?_, fun h => ?_⟩
  · have hkept : ∀ c ∈ s.toList.filter (!isBlank ·), asSpace c = c := fun c hc =>
      asSpace_eq_self (by simpa using (List.mem_filter.mp hc).2)
    rw [collapse_eq_squeeze, filter_squeeze _ rfl, String.toList_map, List.filter_map]
    simp only [Function.comp_def, isBlank_asSpace]
    rw [List.map_congr_left hkept, List.map_id']
  · -- another blank would be in the squeezed text, but collapsing leaves no blanks but spaces
    by_contra hmarkup
    rw [Bool.not_eq_true] at hmarkup
    have hne : c ≠ ' ' := by rintro rfl; exact absurd hmarkup (by decide)
    have hmem : c ∈ (squeeze (replace.normalize s)).toList.filter (· != ' ') := by
      rw [filter_squeeze _ rfl]
      exact List.mem_filter.mpr ⟨mem_replace hc hmarkup, by simpa using hne⟩
    rw [← heq, collapse_eq_squeeze, filter_squeeze _ rfl, String.toList_map] at hmem
    obtain ⟨d, -, rfl⟩ := List.mem_map.mp (List.mem_filter.mp hmem).1
    exact hne (asSpace_eq_space hblank)
  · rw [collapse_eq_squeeze, replace_eq_map h]

/-- A space that does not break lines is no blank of markup, but is collapsed to a plain one. -/
theorem collapse_noBreakSpace : isMarkupBlank '\u00a0' = false ∧
    collapse.normalize "a\u00a0b" = "a b" ∧
    squeeze (replace.normalize "a\u00a0b") = "a\u00a0b" := by
  decide +kernel

end Spacing

end MarkupGrammar
