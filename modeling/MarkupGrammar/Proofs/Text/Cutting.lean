import MarkupGrammar.Text.Blank
import Mathlib.Data.List.DropRight

/-! # Cutting and trimming text

What the operations on text amount to, in terms of joining: cutting at a character undoes joining
with it, a text after a beginning or before an ending is what the whole is made up of with it, and
trimming takes nothing but blanks from the two ends. -/

namespace MarkupGrammar.Text

variable {c : Char} {s t w rest mark : List Char} {ps : List (List Char)}

/-! ## Pieces -/

theorem piecesFrom_eq_splitOnPPrepend (isCut : Char → Bool) (piece s : List Char) :
    piecesFrom isCut piece s = List.splitOnPPrepend isCut s piece := by
  induction s generalizing piece with
  | nil => rfl
  | cons c s ih =>
    rw [piecesFrom]
    split
    · rename_i hc
      rw [ih, List.splitOnPPrepend_cons_pos hc, List.splitOnP_eq_splitOnPPrepend]
    · rename_i hc
      rw [ih, List.splitOnPPrepend_cons_neg (by simpa using hc)]

theorem pieces_eq_splitOnP (isCut : Char → Bool) (s : List Char) :
    pieces isCut s = s.splitOnP isCut := by
  rw [pieces, piecesFrom_eq_splitOnPPrepend, List.splitOnP_eq_splitOnPPrepend]

theorem pieces_eq_splitOn (c : Char) (s : List Char) : pieces (· == c) s = s.splitOn c := by
  rw [pieces_eq_splitOnP, List.splitOn_eq_splitOnP]

theorem pieces_ne_nil (c : Char) (s : List Char) : pieces (· == c) s ≠ [] := by
  rw [pieces_eq_splitOn]
  exact List.splitOn_ne_nil c s

theorem intercalate_pieces (c : Char) (s : List Char) :
    [c].intercalate (pieces (· == c) s) = s := by
  rw [pieces_eq_splitOn, List.intercalate_splitOn]

theorem pieces_intercalate (hne : ps ≠ []) (h : ∀ p ∈ ps, c ∉ p) :
    pieces (· == c) ([c].intercalate ps) = ps := by
  rw [pieces_eq_splitOn, List.splitOn_intercalate c h hne]

theorem mem_intercalate {d : Char} (h : d ∈ [c].intercalate ps) : d = c ∨ ∃ p ∈ ps, d ∈ p := by
  induction ps with
  | nil => exact absurd h List.not_mem_nil
  | cons p ps ih =>
    cases ps with
    | nil =>
      rw [List.intercalate_singleton] at h
      exact .inr ⟨p, .head _, h⟩
    | cons q ps =>
      rw [List.intercalate_cons_cons, List.mem_append, List.mem_append] at h
      rcases h with (h | h) | h
      · exact .inr ⟨p, .head _, h⟩
      · exact .inl (List.mem_singleton.mp h)
      · exact (ih h).imp_right fun ⟨p', hp, hd⟩ => ⟨p', .tail _ hp, hd⟩

theorem mem_intercalate_of_mem {d : Char} {p : List Char} (hp : p ∈ ps) (hd : d ∈ p) :
    d ∈ [c].intercalate ps := by
  induction ps with
  | nil => exact absurd hp List.not_mem_nil
  | cons q ps ih =>
    cases ps with
    | nil =>
      obtain rfl := List.mem_singleton.mp hp
      rwa [List.intercalate_singleton]
    | cons r ps =>
      rw [List.intercalate_cons_cons, List.mem_append]
      rcases List.mem_cons.mp hp with rfl | hp
      · exact .inl (List.mem_append_left _ hd)
      · exact .inr (ih hp)

/-! ## Beginnings and endings -/

theorem after?_eq_some_iff : after? mark s = some rest ↔ s = mark ++ rest := by
  induction mark generalizing s with
  | nil => exact Option.some_inj
  | cons a mark ih =>
    cases s with
    | nil => simp [after?]
    | cons b s =>
      rw [after?]
      split
      · rename_i hab
        rw [ih, hab, List.cons_append, List.cons_inj_right]
      · rename_i hab
        simp [Ne.symm hab]

theorem cut_eq_none_iff : cut c s = none ↔ c ∉ s := by
  induction s with
  | nil => simp [cut]
  | cons d s ih =>
    rw [cut]
    split
    · rename_i hd
      simp [hd]
    · rename_i hd
      rw [Option.map_eq_none_iff, ih, List.mem_cons, not_or, and_iff_right (Ne.symm hd)]

theorem cut_eq_some_iff : cut c s = some (t, rest) ↔ s = t ++ c :: rest ∧ c ∉ t := by
  induction s generalizing t with
  | nil => simp [cut]
  | cons d s ih =>
    rw [cut]
    split
    · rename_i hd
      subst hd
      cases t <;> simp +contextual [eq_comm]
    · rename_i hd
      cases t with
      | nil => simp [hd]
      | cons a t =>
        rw [Option.map_eq_some_iff]
        constructor
        · rintro ⟨⟨t', rest'⟩, hr, heq⟩
          obtain ⟨⟨rfl, rfl⟩, rfl⟩ : (d = a ∧ t' = t) ∧ rest' = rest := by simpa using heq
          obtain ⟨rfl, ht⟩ := ih.mp hr
          exact ⟨rfl, by simp [Ne.symm hd, ht]⟩
        · rintro ⟨hs, ht⟩
          obtain ⟨rfl, rfl⟩ := List.cons.inj hs
          exact ⟨(t, rest), ih.mpr ⟨rfl, fun hc => ht (.tail _ hc)⟩, rfl⟩

theorem eq_of_cutAt (h : cutAt mark s = some (t, rest)) : s = t ++ mark ++ rest := by
  induction s generalizing t with
  | nil =>
    rw [cutAt, Option.map_eq_some_iff] at h
    obtain ⟨r, hr, heq⟩ := h
    obtain ⟨rfl, rfl⟩ := Prod.mk.inj heq
    exact after?_eq_some_iff.mp hr
  | cons d s ih =>
    rw [cutAt] at h
    split at h
    · rename_i r hr
      obtain ⟨rfl, rfl⟩ := Prod.mk.inj (Option.some.inj h)
      exact after?_eq_some_iff.mp hr
    · rw [Option.map_eq_some_iff] at h
      obtain ⟨⟨t', rest'⟩, hr, heq⟩ := h
      obtain ⟨rfl, rfl⟩ := Prod.mk.inj heq
      rw [ih hr]
      rfl

/-! ## Trimming -/

/-- The text neither begins nor ends with a blank. -/
structure IsTrimmed (s : List Char) : Prop where
  head : ∀ c ∈ s.head?, isBlank c = false
  last : ∀ c ∈ s.getLast?, isBlank c = false

/-- Only blanks are taken, and only from the ends. -/
theorem exists_eq_append_trimBlanks (s : List Char) : ∃ before behind,
    (∀ c ∈ before, isBlank c) ∧ (∀ c ∈ behind, isBlank c) ∧
      s = before ++ trimBlanks s ++ behind := by
  refine ⟨s.takeWhile isBlank, (dropBlanks s).rtakeWhile isBlank,
    fun c => List.mem_takeWhile_imp, fun c => List.mem_rtakeWhile_imp, ?_⟩
  have hend : trimBlanks s ++ (dropBlanks s).rtakeWhile isBlank = dropBlanks s :=
    List.rdropWhile_append_rtakeWhile
  rw [List.append_assoc, hend, dropBlanks, List.takeWhile_append_dropWhile]

theorem isTrimmed_trimBlanks (s : List Char) : IsTrimmed (trimBlanks s) := by
  have hbegins : trimBlanks s <+: dropBlanks s := List.rdropWhile_prefix _ _
  refine ⟨fun c hc => ?_, fun c hc => ?_⟩
  · obtain ⟨behind, hs⟩ := hbegins
    have hhead : (dropBlanks s).head? = some c := by
      rw [← hs, List.head?_append, Option.mem_def.mp hc, Option.some_or]
    have hnot := List.head?_dropWhile_not isBlank s
    rw [dropBlanks] at hhead
    rwa [hhead] at hnot
  · obtain ⟨hne, rfl⟩ := List.mem_getLast?_eq_getLast hc
    exact eq_false_of_ne_true (List.rdropWhile_last_not isBlank (dropBlanks s) hne)

theorem IsTrimmed.trimBlanks_eq (h : IsTrimmed s) : trimBlanks s = s := by
  have hstart : dropBlanks s = s := by
    cases s with
    | nil => rfl
    | cons c s => exact List.dropWhile_cons_of_neg (by simp [h.head c rfl])
  have hend : dropBlanksEnd s = s := by
    refine List.rdropWhile_eq_self_iff.mpr fun hne => ?_
    rw [h.last _ (List.getLast?_eq_some_getLast hne)]
    exact Bool.false_ne_true
  rw [trimBlanks, hstart, hend]

theorem isTrimmed_singleton (h : isBlank c = false) : IsTrimmed [c] := by
  constructor <;> simp [h]

theorem IsTrimmed.append (hs : IsTrimmed s) (ht : IsTrimmed t) : IsTrimmed (s ++ t) := by
  refine ⟨fun c hc => ?_, fun c hc => ?_⟩
  · rw [List.head?_append, Option.mem_def, Option.or_eq_some_iff] at hc
    exact hc.elim (hs.head c) fun hc => ht.head c hc.2
  · rw [List.getLast?_append, Option.mem_def, Option.or_eq_some_iff] at hc
    exact hc.elim (ht.last c) fun hc => hs.last c hc.2

theorem isTrimmed_intercalate (hc : isBlank c = false) (h : ∀ p ∈ ps, IsTrimmed p) :
    IsTrimmed ([c].intercalate ps) := by
  induction ps with
  | nil => exact ⟨nofun, nofun⟩
  | cons p ps ih =>
    obtain ⟨hp, hps⟩ := List.forall_mem_cons.mp h
    cases ps with
    | nil => rwa [List.intercalate_singleton]
    | cons q ps =>
      rw [List.intercalate_cons_cons]
      exact (hp.append (isTrimmed_singleton hc)).append (ih hps)

theorem trimBlanks_trimBlanks (s : List Char) : trimBlanks (trimBlanks s) = trimBlanks s :=
  (isTrimmed_trimBlanks s).trimBlanks_eq

theorem trimBlanks_cons_of_isBlank (h : isBlank c) : trimBlanks (c :: s) = trimBlanks s := by
  rw [trimBlanks, dropBlanks, List.dropWhile_cons_of_pos h]
  rfl

theorem trimBlanks_concat_of_isBlank (h : isBlank c) : trimBlanks (s ++ [c]) = trimBlanks s := by
  rw [trimBlanks, dropBlanks, List.dropWhile_append]
  split
  · rename_i hnil
    rw [trimBlanks, dropBlanks, List.isEmpty_iff.mp hnil, List.dropWhile_cons_of_pos h]
    rfl
  · rw [dropBlanksEnd, List.reverse_concat, List.dropWhile_cons_of_pos h]
    rfl

/-- The text `s` is `w` with blanks around it, if any. -/
def IsPadded (w s : List Char) : Prop :=
  ∃ before behind, (∀ c ∈ before, isBlank c) ∧ (∀ c ∈ behind, isBlank c) ∧
    s = before ++ w ++ behind

/-- What holds of a text and is not changed by blanks around it. -/
theorem IsPadded.induction {motive : List Char → Prop} (h : IsPadded w s) (self : motive w)
    (cons : ∀ c s, isBlank c → motive s → motive (c :: s))
    (concat : ∀ c s, isBlank c → motive s → motive (s ++ [c])) : motive s := by
  obtain ⟨before, behind, hbefore, hbehind, rfl⟩ := h
  induction behind using List.reverseRecOn with
  | nil =>
    rw [List.append_nil]
    clear hbehind
    induction before with
    | nil => exact self
    | cons c before ih =>
      obtain ⟨hc, hbefore⟩ := List.forall_mem_cons.mp hbefore
      exact cons c _ hc (ih hbefore)
  | append_singleton behind c ih =>
    obtain ⟨hbehind, hc⟩ := List.forall_mem_append.mp hbehind
    rw [← List.append_assoc]
    exact concat c _ (hc c List.mem_cons_self) (ih hbehind)

/-- **Trimming yields a trimmed text from that text with blanks around it, and from no other.** -/
theorem IsTrimmed.trimBlanks_eq_iff (hw : IsTrimmed w) : trimBlanks s = w ↔ IsPadded w s := by
  constructor
  · rintro rfl
    exact exists_eq_append_trimBlanks s
  · intro h
    refine h.induction (motive := (trimBlanks · = w)) hw.trimBlanks_eq (fun c s hc ih => ?_)
      fun c s hc ih => ?_
    · rw [trimBlanks_cons_of_isBlank hc, ih]
    · rw [trimBlanks_concat_of_isBlank hc, ih]

/-- Blanks at the beginning of a text are blanks at the beginning of its first piece. -/
theorem trimBlanks_pieces_dropBlanks (hc : isBlank c = false) (s : List Char) :
    (pieces (· == c) (dropBlanks s)).map trimBlanks = (pieces (· == c) s).map trimBlanks := by
  induction s with
  | nil => rfl
  | cons d s ih =>
    by_cases hd : isBlank d
    · have hne : (d == c) = false := by
        rw [beq_eq_false_iff_ne]
        rintro rfl
        exact Bool.false_ne_true (hc.symm.trans hd)
      have hpieces : pieces (· == c) (d :: s) = (pieces (· == c) s).modifyHead (d :: ·) := by
        rw [pieces_eq_splitOn, pieces_eq_splitOn, List.splitOn_cons_eq_if_modifyHead, hne]
        rfl
      rw [dropBlanks, List.dropWhile_cons_of_pos hd, ← dropBlanks, ih, hpieces]
      cases pieces (· == c) s with
      | nil => rfl
      | cons p ps => simp [trimBlanks_cons_of_isBlank hd]
    · rw [dropBlanks, List.dropWhile_cons_of_neg hd]

theorem isBlank_or_mem_trimBlanks (h : c ∈ s) : isBlank c ∨ c ∈ trimBlanks s := by
  obtain ⟨before, behind, hbefore, hbehind, hs⟩ := exists_eq_append_trimBlanks s
  rw [hs, List.mem_append, List.mem_append] at h
  rcases h with (h | h) | h
  · exact .inl (hbefore c h)
  · exact .inr h
  · exact .inl (hbehind c h)

end MarkupGrammar.Text
