import MarkupGrammar.Proofs.Text.Cutting
import MarkupGrammar.Text.Blank

/-! # Words

The words of a text are its pieces without blanks that have blanks or ends of the text around them
(`mem_words_iff`). The treatments of white space leave them as they are: a word is treated as itself
(`normalize_of_isWord`), and a text has the same words before and after its treatment
(`words_normalize`). -/

namespace MarkupGrammar

namespace Text

variable {c : Char} {s w : List Char} {ws : List (List Char)}

/-- A nonempty text without blanks. -/
structure IsWord (w : List Char) : Prop where
  ne_nil : w ≠ []
  not_blank : ∀ c ∈ w, isBlank c = false

theorem IsWord.of_all (hne : w ≠ []) (h : w.all fun c => !isBlank c) : IsWord w :=
  ⟨hne, by simpa using h⟩

theorem IsWord.isTrimmed (hw : IsWord w) : IsTrimmed w where
  head c hc := hw.not_blank c (List.mem_of_mem_head? hc)
  last c hc := hw.not_blank c (List.mem_of_getLast? hc)

/-! ## Words of lists of characters -/

theorem wordLists_eq (s : List Char) :
    wordLists s = (s.splitOnP isBlank).filter (!·.isEmpty) := by
  rw [wordLists, pieces_eq_splitOnP]

theorem IsWord.wordLists_eq_singleton (hw : IsWord w) : wordLists w = [w] := by
  rw [wordLists_eq, List.splitOnP_eq_singleton hw.not_blank]
  simp [hw.ne_nil]

theorem IsWord.wordLists_append (hw : IsWord w) (hc : isBlank c) (s : List Char) :
    wordLists (w ++ c :: s) = w :: wordLists s := by
  rw [wordLists_eq, List.splitOnP_append_cons_of_forall_mem hw.not_blank c hc,
    List.filter_cons_of_pos (by simp [hw.ne_nil]), wordLists_eq]

theorem not_cut_of_mem_piecesFrom {isCut : Char → Bool} {piece p : List Char}
    (hpiece : ∀ c ∈ piece, isCut c = false) (hp : p ∈ piecesFrom isCut piece s) :
    ∀ c ∈ p, isCut c = false := by
  induction s generalizing piece with
  | nil =>
    obtain rfl := List.mem_singleton.mp hp
    exact fun c hc => hpiece c (List.mem_reverse.mp hc)
  | cons d s ih =>
    rw [piecesFrom] at hp
    split at hp
    · rcases List.mem_cons.mp hp with rfl | hp
      · exact fun c hc => hpiece c (List.mem_reverse.mp hc)
      · exact ih (fun c hc => absurd hc List.not_mem_nil) hp
    · rename_i hd
      exact ih (List.forall_mem_cons.mpr ⟨eq_false_of_ne_true hd, hpiece⟩) hp

theorem isWord_of_mem_wordLists (hw : w ∈ wordLists s) : IsWord w := by
  obtain ⟨hmem, hne⟩ := List.mem_filter.mp hw
  exact ⟨by simpa using hne,
    not_cut_of_mem_piecesFrom (fun c hc => absurd hc List.not_mem_nil) hmem⟩

theorem piecesFrom_map {isCut : Char → Bool} {f : Char → Char} (h : ∀ c, isCut (f c) = isCut c)
    (piece s : List Char) : piecesFrom isCut (piece.map f) (s.map f) =
      (piecesFrom isCut piece s).map (List.map f) := by
  induction s generalizing piece with
  | nil => simp [piecesFrom]
  | cons c s ih =>
    rw [List.map_cons, piecesFrom, piecesFrom, h]
    split
    · rw [List.map_cons, ← ih, List.map_reverse, List.map_nil]
    · rw [← ih, List.map_cons]

theorem IsWord.map_eq_self (hw : IsWord w) {f : Char → Char}
    (hf : ∀ c, isBlank c = false → f c = c) : w.map f = w := by
  rw [List.map_congr_left fun c hc => hf c (hw.not_blank c hc), List.map_id']

/-- Words stay where blanks are turned into other blanks. -/
theorem wordLists_map {f : Char → Char} (h : ∀ c, isBlank (f c) = isBlank c)
    (hf : ∀ c, isBlank c = false → f c = c) (s : List Char) :
    wordLists (s.map f) = wordLists s := by
  have hpieces : pieces isBlank (s.map f) = (pieces isBlank s).map (List.map f) :=
    piecesFrom_map h [] s
  have hmap : wordLists (s.map f) = (wordLists s).map (List.map f) := by
    rw [wordLists, hpieces, List.filter_map, wordLists]
    congr 2
    funext w
    simp
  have hself : ∀ w ∈ wordLists s, w.map f = w := fun w hw =>
    (isWord_of_mem_wordLists hw).map_eq_self hf
  rw [hmap, List.map_congr_left hself, List.map_id']

/-- Words written one after the other are the words of what is written. -/
theorem wordLists_intercalate (h : ∀ w ∈ ws, IsWord w) : wordLists ([' '].intercalate ws) = ws := by
  induction ws with
  | nil => rfl
  | cons w ws ih =>
    obtain ⟨hw, hws⟩ := List.forall_mem_cons.mp h
    cases ws with
    | nil => rw [List.intercalate_singleton, hw.wordLists_eq_singleton]
    | cons w' ws =>
      rw [List.intercalate_cons_cons, List.append_assoc, List.singleton_append,
        hw.wordLists_append (by decide), ih hws]

/-! ## Places of words -/

theorem wordLists_append_cons (hc : isBlank c) (s t : List Char) :
    wordLists (s ++ c :: t) = wordLists s ++ wordLists t := by
  rw [wordLists_eq, List.splitOnP_append_cons s t hc, List.filter_append, ← wordLists_eq,
    ← wordLists_eq]

/-- Blanks around a text are between no words. -/
theorem IsPadded.wordLists_eq (h : IsPadded w s) : wordLists s = wordLists w := by
  refine h.induction (motive := (wordLists · = wordLists w)) rfl (fun c s hc ih => ?_)
    fun c s hc ih => ?_
  · rw [← ih]
    exact wordLists_append_cons hc [] s
  · rw [wordLists_append_cons hc, ih]
    exact List.append_nil _

theorem wordLists_trimBlanks (s : List Char) : wordLists (trimBlanks s) = wordLists s :=
  (IsPadded.wordLists_eq (exists_eq_append_trimBlanks s)).symm

/-- A word of the text: before it and behind it there is a blank or nothing. -/
structure HasWord (s w : List Char) : Prop where
  isWord : IsWord w
  place : ∃ before behind, s = before ++ w ++ behind ∧ (∀ c ∈ before.getLast?, isBlank c) ∧
    ∀ c ∈ behind.head?, isBlank c

theorem exists_place_of_mem_piecesFrom {isCut : Char → Bool} {piece p : List Char}
    (hp : p ∈ piecesFrom isCut piece s) : ∃ before behind,
      piece.reverse ++ s = before ++ p ++ behind ∧
        (∀ c ∈ before.getLast?, isCut c) ∧ ∀ c ∈ behind.head?, isCut c := by
  induction s generalizing piece with
  | nil =>
    obtain rfl := List.mem_singleton.mp hp
    exact ⟨[], [], rfl, nofun, nofun⟩
  | cons d s ih =>
    rw [piecesFrom] at hp
    split at hp
    · rename_i hd
      rcases List.mem_cons.mp hp with rfl | hp
      · exact ⟨[], d :: s, rfl, nofun, by simpa using hd⟩
      · obtain ⟨before, behind, hs, hbefore, hbehind⟩ := ih hp
        rw [List.reverse_nil, List.nil_append] at hs
        refine ⟨piece.reverse ++ d :: before, behind, by simp [hs], fun c hc => ?_, hbehind⟩
        rw [List.getLast?_append, List.getLast?_cons] at hc
        cases hlast : before.getLast? with
        | none =>
          obtain rfl : d = c := by simpa [hlast] using hc
          exact hd
        | some b => exact hbefore c (by simpa [hlast] using hc)
    · obtain ⟨before, behind, hs, h⟩ := ih hp
      exact ⟨before, behind, by rw [← hs, List.reverse_cons, List.append_assoc]; rfl, h⟩

/-- **The words of a text are its pieces with blanks or ends of the text around them.** -/
theorem mem_wordLists_iff : w ∈ wordLists s ↔ HasWord s w := by
  constructor
  · intro h
    exact ⟨isWord_of_mem_wordLists h, exists_place_of_mem_piecesFrom (List.mem_filter.mp h).1⟩
  · rintro ⟨hw, before, behind, rfl, hbefore, hbehind⟩
    have hmem : w ∈ wordLists (w ++ behind) := by
      cases behind with
      | nil =>
        rw [List.append_nil, hw.wordLists_eq_singleton]
        exact List.mem_singleton_self w
      | cons c behind =>
        rw [hw.wordLists_append (hbehind c rfl)]
        exact List.mem_cons_self
    rw [List.append_assoc]
    rcases List.eq_nil_or_concat before with rfl | ⟨before, c, rfl⟩
    · exact hmem
    · rw [List.concat_eq_append] at hbefore ⊢
      rw [List.append_assoc, List.singleton_append,
        wordLists_append_cons (hbefore c (by simp))]
      exact List.mem_append_right _ hmem

/-! ## Words of strings -/

theorem map_toList_words (s : String) : (words s).map String.toList = wordLists s.toList := by
  rw [words, List.map_map]
  exact List.map_id'' (fun w => String.toList_ofList) _

theorem isWord_of_mem_words {w s : String} (hw : w ∈ words s) : IsWord w.toList :=
  isWord_of_mem_wordLists (map_toList_words s ▸ List.mem_map_of_mem hw)

theorem mem_words_iff {w s : String} : w ∈ words s ↔ HasWord s.toList w.toList := by
  rw [← mem_wordLists_iff, ← map_toList_words, List.mem_map]
  constructor
  · exact fun h => ⟨w, h, rfl⟩
  · rintro ⟨v, hv, h⟩
    rwa [← String.toList_inj.mp h]

theorem words_trim (s : String) : words (trim s) = words s := by
  rw [words, words, trim, String.toList_ofList, wordLists_trimBlanks]

theorem trim_eq_iff {w s : String} (hw : IsTrimmed w.toList) :
    trim s = w ↔ IsPadded w.toList s.toList := by
  rw [← hw.trimBlanks_eq_iff, trim, ← String.toList_inj, String.toList_ofList]

end Text

namespace Spacing

open Text

theorem replaced_isBlank (c : Char) :
    isBlank (if c == '\t' || c == '\n' || c == '\r' then ' ' else c) = isBlank c := by
  split
  · rename_i hc
    simp only [Bool.or_eq_true, beq_iff_eq] at hc
    obtain (rfl | rfl) | rfl := hc <;> decide
  · rfl

theorem replaced_eq {c : Char} (hc : isBlank c = false) :
    (if c == '\t' || c == '\n' || c == '\r' then ' ' else c) = c := by
  refine if_neg fun hor => ?_
  simp only [Bool.or_eq_true, beq_iff_eq] at hor
  obtain (rfl | rfl) | rfl := hor <;> exact absurd hc (by decide)

/-- **The treatment of white space keeps the words.** -/
theorem words_normalize (w : Spacing) (s : String) : words (w.normalize s) = words s := by
  rw [words, words]
  congr 1
  cases w with
  | preserve => rfl
  | replace =>
    rw [normalize, String.toList_map]
    exact wordLists_map replaced_isBlank (fun _ => replaced_eq) s.toList
  | collapse =>
    rw [normalize, joined, String.toList_intercalate, map_toList_words]
    exact wordLists_intercalate fun w hw => isWord_of_mem_wordLists hw

theorem normalize_of_isWord (w : Spacing) {s : String} (hs : IsWord s.toList) :
    w.normalize s = s := by
  cases w with
  | preserve => rfl
  | replace =>
    rw [← String.toList_inj, normalize, String.toList_map]
    exact hs.map_eq_self fun _ => replaced_eq
  | collapse =>
    rw [normalize, words, hs.wordLists_eq_singleton]
    simp [joined]

end Spacing

end MarkupGrammar
