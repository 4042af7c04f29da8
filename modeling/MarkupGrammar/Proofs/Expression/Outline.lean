import MarkupGrammar.Proofs.Expression.Tree

/-! # Outlines

An *outline* is a content expression as it is written: a word or a group in parentheses, with or
without an operator behind it, where a group is a list of outlines with commas or with bars between
them. In the outline of a tree nested nodes of one kind are one group (`chain`), and a repetition of
a repetition is the repetition of a group with a single member (`repeatedBy`). None of this changes
the language (`language_outline`).

The text of an outline without marks in its words can be read in one way only. So two outlines of
one text have one language (`language_eq_of_text`); outlines themselves may differ, as a group with
a single member shows no separator. -/

namespace MarkupGrammar

open Computability

/-- What is written behind a part that is repeated. -/
inductive RepetitionMark where
  | optional
  | zeroOrMore
  | oneOrMore

namespace RepetitionMark

/-- The character of the mark. -/
def char : RepetitionMark → Char
  | optional => '?'
  | zeroOrMore => '*'
  | oneOrMore => '+'

/-- The language of the repeated part. -/
def language {α : Type} : RepetitionMark → Language α → Language α
  | optional, L => 1 + L
  | zeroOrMore, L => L∗
  | oneOrMore, L => L * L∗

theorem char_inj {a b : RepetitionMark} (h : a.char = b.char) : a = b := by
  cases a <;> cases b <;> first | rfl | exact absurd h (by decide)

end RepetitionMark

/-- A content expression as it is written. -/
inductive Outline where
  | word (w : List Char) (mark : Option RepetitionMark)
  | group (isChoice : Bool) (first : Outline) (rest : List Outline) (mark : Option RepetitionMark)

namespace Outline

/-! ## Texts -/

/-- The characters that are not part of words. -/
def marks : List Char := ['(', ')', ',', '|', '?', '*', '+']

/-- A word is not empty and has no marks. -/
structure IsWord (w : List Char) : Prop where
  ne_nil : w ≠ []
  not_mark (c : Char) (hc : c ∈ w) : c ∉ marks

theorem IsWord.of_all {w : List Char} (hne : w ≠ []) (h : w.all fun c => !marks.contains c) :
    IsWord w := ⟨hne, by simpa using h⟩

/-- What stands between the members of a group. -/
def separator (isChoice : Bool) : Char := if isChoice then '|' else ','

/-- The text of a mark that may be missing. -/
def markText (mark : Option RepetitionMark) : List Char := (mark.map RepetitionMark.char).toList

mutual
/-- The text of an outline. -/
def text : Outline → List Char
  | word w mark => w ++ markText mark
  | group c first rest mark => '(' :: (first.text ++ (restText c rest ++ ')' :: markText mark))

/-- The text of the members of a group behind the first one. -/
def restText (c : Bool) : List Outline → List Char
  | [] => []
  | x :: xs => separator c :: (x.text ++ restText c xs)
end

mutual
/-- The words of the outline have no marks. -/
def Plain : Outline → Prop
  | word w _ => IsWord w
  | group _ first rest _ => first.Plain ∧ PlainAll rest

/-- The words of the outlines have no marks. -/
def PlainAll : List Outline → Prop
  | [] => True
  | x :: xs => x.Plain ∧ PlainAll xs
end

theorem plainAll_append {xs ys : List Outline} :
    PlainAll (xs ++ ys) ↔ PlainAll xs ∧ PlainAll ys := by
  induction xs with
  | nil => simp [PlainAll]
  | cons x xs ih => simp [PlainAll, ih, and_assoc]

/-! ## Languages -/

/-- The language of a part with a mark that may be missing. -/
def markLanguage : Option RepetitionMark → Language Name → Language Name
  | none, L => L
  | some m, L => m.language L

/-- The language of a word: that of a child of this name, or the empty one. -/
def wordLanguage (w : List Char) : Language Name :=
  if w = "EMPTY".toList then 1 else {[.unqualified (String.ofList w)]}

/-- The language of a group. -/
def groupLanguage (c : Bool) (L : Language Name) (Ls : List (Language Name)) : Language Name :=
  if c then L + Ls.sum else L * Ls.prod

theorem groupLanguage_nil (c : Bool) (L : Language Name) : groupLanguage c L [] = L := by
  cases c <;> simp [groupLanguage]

theorem groupLanguage_append (c : Bool) (L L' : Language Name) (Ls Ls' : List (Language Name)) :
    groupLanguage c L (Ls ++ L' :: Ls') =
      groupLanguage c (groupLanguage c L Ls) [groupLanguage c L' Ls'] := by
  cases c <;> simp [groupLanguage, mul_assoc, sup_assoc]

mutual
/-- The language of an outline over names. -/
def language : Outline → Language Name
  | word w mark => markLanguage mark (wordLanguage w)
  | group c first rest mark => markLanguage mark (groupLanguage c first.language (languages rest))

/-- The languages of outlines. -/
def languages : List Outline → List (Language Name)
  | [] => []
  | x :: xs => x.language :: languages xs
end

theorem languages_append (xs ys : List Outline) :
    languages (xs ++ ys) = languages xs ++ languages ys := by
  induction xs with
  | nil => rfl
  | cons x xs ih => simp [languages, ih]

/-! ## Reading -/

/-- What can stand behind an outline: nothing, or something that begins with a separator or with a
closing parenthesis. -/
def Stops (u : List Char) : Prop := ∀ c ∈ u.head?, c ∈ [')', ',', '|']

theorem stops_nil : Stops [] := fun _ h => nomatch h

theorem stops_closing (u : List Char) : Stops (')' :: u) := by
  simp [Stops]

theorem stops_restText (c : Bool) (xs : List Outline) (u : List Char) :
    Stops (restText c xs ++ ')' :: u) := by
  cases xs with
  | nil => exact stops_closing u
  | cons x xs => cases c <;> simp [Stops, restText, separator]

/-- Behind words there are marks. -/
theorem head_mem_marks {mark : Option RepetitionMark} {u : List Char} (hu : Stops u) :
    ∀ c ∈ (markText mark ++ u).head?, c ∈ marks := by
  cases mark with
  | none =>
    intro c hc
    have := hu c hc
    simp only [marks, List.mem_cons] at this ⊢
    tauto
  | some m => cases m <;> simp [markText, RepetitionMark.char, marks]

theorem takeWhile_word {w s : List Char} (hw : IsWord w) (hs : ∀ c ∈ s.head?, c ∈ marks) :
    (w ++ s).takeWhile (· ∉ marks) = w := by
  rw [List.takeWhile_append_of_pos fun c hc => by simpa using hw.not_mark c hc]
  cases s with
  | nil => simp
  | cons c s =>
    have hc : c ∈ marks := hs c rfl
    simp [hc]

theorem word_inj {w w' s s' : List Char} (hw : IsWord w) (hw' : IsWord w')
    (hs : ∀ c ∈ s.head?, c ∈ marks) (hs' : ∀ c ∈ s'.head?, c ∈ marks)
    (h : w ++ s = w' ++ s') : w = w' ∧ s = s' := by
  have hww : w = w' := by rw [← takeWhile_word hw hs, h, takeWhile_word hw' hs']
  subst hww
  exact ⟨rfl, List.append_cancel_left h⟩

theorem char_not_stops {m : RepetitionMark} {u : List Char} : ¬ Stops (m.char :: u) := by
  cases m <;> simp [Stops, RepetitionMark.char]

theorem mark_inj {mark mark' : Option RepetitionMark} {u u' : List Char} (hu : Stops u)
    (hu' : Stops u') (h : markText mark ++ u = markText mark' ++ u') : mark = mark' ∧ u = u' := by
  cases mark with
  | none =>
    cases mark' with
    | none => exact ⟨rfl, h⟩
    | some m' =>
      rw [show u = _ from h] at hu
      exact absurd hu char_not_stops
  | some m =>
    cases mark' with
    | none =>
      rw [← show _ = u' from h] at hu'
      exact absurd hu' char_not_stops
    | some m' =>
      obtain ⟨hm, hu⟩ := List.cons.inj h
      exact ⟨congrArg some (RepetitionMark.char_inj hm), hu⟩

theorem IsWord.append_ne {w s u : List Char} (hw : IsWord w) : w ++ s ≠ '(' :: u := by
  cases w with
  | nil => exact absurd rfl hw.ne_nil
  | cons c w =>
    intro h
    obtain ⟨rfl, -⟩ := List.cons.inj h
    exact hw.not_mark _ List.mem_cons_self (by decide)

theorem separator_ne (c : Bool) : separator c ≠ ')' := by
  cases c <;> decide

theorem separator_inj {c c' : Bool} (h : separator c = separator c') : c = c' := by
  cases c <;> cases c' <;> first | rfl | exact absurd h (by decide)

mutual
/-- **A text is read in one way.** Two outlines that one text begins with have one language and end
at one place. -/
theorem language_eq_of_text_append : ∀ (x y : Outline) {u v : List Char}, x.Plain → y.Plain →
    Stops u → Stops v → x.text ++ u = y.text ++ v → x.language = y.language ∧ u = v
  | .word w mark, .word w' mark', u, v, hx, hy, hu, hv, h => by
    simp only [text, List.append_assoc] at h
    obtain ⟨rfl, hmark⟩ := word_inj hx hy (head_mem_marks hu) (head_mem_marks hv) h
    obtain ⟨rfl, rfl⟩ := mark_inj hu hv hmark
    exact ⟨rfl, rfl⟩
  | .word w mark, .group c first rest mark', u, v, hx, hy, hu, hv, h => by
    have hw : IsWord w := hx
    simp only [text, List.append_assoc] at h
    exact absurd h hw.append_ne
  | .group c first rest mark, .word w mark', u, v, hx, hy, hu, hv, h => by
    have hw : IsWord w := hy
    simp only [text, List.append_assoc] at h
    exact absurd h.symm hw.append_ne
  | .group c first rest mark, .group c' first' rest' mark', u, v, hx, hy, hu, hv, h => by
    simp only [text, List.cons_append, List.append_assoc] at h
    obtain ⟨hfirst, h⟩ := language_eq_of_text_append first first' hx.1 hy.1 (stops_restText _ _ _)
      (stops_restText _ _ _) (List.cons.inj h).2
    obtain ⟨hrest, hc, h⟩ := languages_eq_of_restText c c' rest rest' hx.2 hy.2 h
    obtain ⟨rfl, rfl⟩ := mark_inj hu hv h
    refine ⟨?_, rfl⟩
    rw [language, language, ← hrest, ← hfirst]
    rcases hc with hc | rfl
    · rw [hc, groupLanguage_nil, groupLanguage_nil]
    · rfl

theorem languages_eq_of_restText (c c' : Bool) : ∀ (xs ys : List Outline) {u v : List Char},
    PlainAll xs → PlainAll ys → restText c xs ++ ')' :: u = restText c' ys ++ ')' :: v →
      languages xs = languages ys ∧ (languages xs = [] ∨ c = c') ∧ u = v
  | [], [], u, v, _, _, h => ⟨rfl, .inl rfl, (List.cons.inj h).2⟩
  | [], y :: ys, u, v, _, hy, h => by
    simp only [restText, List.nil_append, List.cons_append] at h
    exact absurd (List.cons.inj h).1.symm (separator_ne c')
  | x :: xs, [], u, v, hx, _, h => by
    simp only [restText, List.nil_append, List.cons_append] at h
    exact absurd (List.cons.inj h).1 (separator_ne c)
  | x :: xs, y :: ys, u, v, hx, hy, h => by
    simp only [restText, List.cons_append, List.append_assoc] at h
    obtain ⟨hc, h⟩ := List.cons.inj h
    obtain ⟨hxy, h⟩ := language_eq_of_text_append x y hx.1 hy.1 (stops_restText _ _ _)
      (stops_restText _ _ _) h
    obtain ⟨hrest, -, rfl⟩ := languages_eq_of_restText c c' xs ys hx.2 hy.2 h
    exact ⟨by rw [languages, languages, hxy, hrest], .inr (separator_inj hc), rfl⟩
end

theorem language_eq_of_text {x y : Outline} (hx : x.Plain) (hy : y.Plain) (h : x.text = y.text) :
    x.language = y.language :=
  (language_eq_of_text_append x y hx hy stops_nil stops_nil (by rw [h])).1

/-! ## Parts of outlines -/

/-- The first member of a group of the kind without a mark, and the others. Any other outline is the
only member of its own. -/
def split (c : Bool) : Outline → Outline × List Outline
  | group c' first rest none => if c' = c then (first, rest) else (group c' first rest none, [])
  | x => (x, [])

/-- The members of a group of the kind without a mark, or else the outline. -/
def members (c : Bool) (x : Outline) : List Outline := (x.split c).1 :: (x.split c).2

/-- The group of two outlines, where groups of the kind without a mark are no members. -/
def chain (c : Bool) (x y : Outline) : Outline :=
  group c (x.split c).1 ((x.split c).2 ++ y.members c) none

/-- Whether there is a mark behind the outline. -/
def isMarked : Outline → Bool
  | word _ mark | group _ _ _ mark => mark.isSome

/-- The outline with a mark behind it; one with a mark gets parentheses. -/
def repeatedBy (m : RepetitionMark) : Outline → Outline
  | word w none => word w (some m)
  | group c first rest none => group c first rest (some m)
  | x => group false x [] (some m)

variable {c : Bool} {m : RepetitionMark} {x y : Outline}

theorem members_chain (x y : Outline) : (chain c x y).members c = x.members c ++ y.members c := by
  simp [chain, members, split]

theorem split_chain_of_ne {c' : Bool} (h : c ≠ c') :
    (chain c x y).split c' = (chain c x y, []) := by
  simp [chain, split, h]

theorem split_of_isMarked (h : x.isMarked) : x.split c = (x, []) := by
  rcases x with ⟨w, _ | m⟩ | ⟨c', first, rest, _ | m⟩
  · exact absurd h Bool.noConfusion
  · rfl
  · exact absurd h Bool.noConfusion
  · rfl

theorem isMarked_repeatedBy : (x.repeatedBy m).isMarked := by
  rcases x with ⟨w, _ | m⟩ | ⟨c, first, rest, _ | m⟩ <;> rfl

theorem text_repeatedBy : (x.repeatedBy m).text =
    (if x.isMarked then '(' :: x.text ++ [')'] else x.text) ++ [m.char] := by
  rcases x with ⟨w, _ | m⟩ | ⟨c, first, rest, _ | m⟩ <;>
    simp [repeatedBy, text, restText, isMarked, markText]

theorem intercalate_texts (xs : List Outline) :
    [separator c].intercalate ((x :: xs).map text) = x.text ++ restText c xs := by
  induction xs generalizing x with
  | nil => simp [restText]
  | cons y ys ih =>
    rw [List.map_cons, List.map_cons, List.intercalate_cons_cons, ← List.map_cons, ih]
    simp [restText]

theorem text_chain : (chain c x y).text =
    '(' :: ([separator c].intercalate ((x.members c ++ y.members c).map text) ++ [')']) := by
  have h : x.members c ++ y.members c = (x.split c).1 :: ((x.split c).2 ++ y.members c) := rfl
  rw [chain, text, h, intercalate_texts, List.append_assoc]
  rfl

/-! ## Languages of parts -/

theorem groupLanguage_split :
    groupLanguage c (x.split c).1.language (languages (x.split c).2) = x.language := by
  rcases x with ⟨w, _ | m⟩ | ⟨c', first, rest, _ | m⟩ <;>
    simp only [split, languages, groupLanguage_nil]
  split
  · rename_i h
    simp [h, language, markLanguage]
  · simp [languages, groupLanguage_nil]

theorem language_chain :
    (chain c x y).language = if c then x.language + y.language else x.language * y.language := by
  rw [chain, language, markLanguage, languages_append, members, languages, groupLanguage_append,
    groupLanguage_split, groupLanguage_split]
  cases c <;> simp [groupLanguage]

theorem language_repeatedBy : (x.repeatedBy m).language = m.language x.language := by
  rcases x with ⟨w, _ | m⟩ | ⟨c, first, rest, _ | m⟩ <;>
    simp [repeatedBy, language, markLanguage, languages, groupLanguage_nil]

/-! ## Marks in parts -/

theorem plain_split : PlainAll (x.members c) ↔ x.Plain := by
  rcases x with ⟨w, _ | m⟩ | ⟨c', first, rest, _ | m⟩ <;>
    simp only [members, split, PlainAll, and_true]
  split <;> simp [Plain, PlainAll]

theorem plain_chain (hx : x.Plain) (hy : y.Plain) : (chain c x y).Plain := by
  rw [← plain_split (c := c), members_chain, plainAll_append, plain_split, plain_split]
  exact ⟨hx, hy⟩

theorem plain_repeatedBy (hx : x.Plain) : (x.repeatedBy m).Plain := by
  rcases x with ⟨w, _ | m⟩ | ⟨c, first, rest, _ | m⟩
  · exact hx
  · exact ⟨hx, trivial⟩
  · exact hx
  · exact ⟨hx, trivial⟩

end Outline

/-! ## Outlines of trees -/

namespace ExpressionTree

variable {e : ExpressionTree Position}

open Outline

/-- The tree as it is written. -/
def outline : ExpressionTree Position → Outline
  | empty => .word "EMPTY".toList none
  | leaf x => .word x.leaf.text.toList none
  | choice a b => .chain true a.outline b.outline
  | sequence a b => .chain false a.outline b.outline
  | optional a => a.outline.repeatedBy .optional
  | zeroOrMore a => a.outline.repeatedBy .zeroOrMore
  | oneOrMore a => a.outline.repeatedBy .oneOrMore

end ExpressionTree

/-- The leaf is an element in no namespace whose name is a word other than the one for the empty
expression. -/
def Leaf.IsPlain (l : Leaf) : Prop :=
  ∃ s : String, l = .element (.unqualified s) ∧ Outline.IsWord s.toList ∧ s ≠ "EMPTY"

namespace ExpressionTree

variable {e : ExpressionTree Position}

open Outline

theorem wordLanguage_text {l : Leaf} (h : l.IsPlain) :
    wordLanguage l.text.toList = letters fun n => l.accepts n := by
  obtain ⟨s, rfl, -, hs⟩ := h
  have hne : s.toList ≠ "EMPTY".toList := fun h => hs (String.toList_inj.mp h)
  rw [show (Leaf.element (.unqualified s)).text = s from rfl, wordLanguage, if_neg hne,
    String.ofList_toList]
  ext w
  constructor
  · exact fun h => ⟨_, by simp [Leaf.accepts], h⟩
  · rintro ⟨n, hn, rfl⟩
    rw [← eq_of_beq hn]
    rfl

/-- **The outline of a tree with plain leaves has its language.** -/
theorem language_outline (h : ∀ x ∈ e.leaves, x.leaf.IsPlain) :
    e.outline.language = e.language fun x n => x.leaf.accepts n := by
  induction e with
  | empty => simp [outline, Outline.language, markLanguage, wordLanguage, language]
  | leaf x =>
    rw [outline, Outline.language, markLanguage, wordLanguage_text (h x (by simp [leaves]))]
    rfl
  | choice a b iha ihb | sequence a b iha ihb =>
    obtain ⟨ha, hb⟩ := List.forall_mem_append.mp h
    simp [outline, language_chain, iha ha, ihb hb, language]
  | optional a ih | zeroOrMore a ih | oneOrMore a ih =>
    rw [outline, language_repeatedBy, ih h]
    rfl

theorem plain_outline (h : ∀ x ∈ e.leaves, x.leaf.IsPlain) : e.outline.Plain := by
  induction e with
  | empty => exact .of_all (by decide) (by decide)
  | leaf x =>
    obtain ⟨s, hs, hw, -⟩ := h x (by simp [leaves])
    rw [outline, hs]
    exact hw
  | choice a b iha ihb | sequence a b iha ihb =>
    obtain ⟨ha, hb⟩ := List.forall_mem_append.mp h
    exact plain_chain (iha ha) (ihb hb)
  | optional a ih | zeroOrMore a ih | oneOrMore a ih => exact plain_repeatedBy (ih h)

end ExpressionTree

end MarkupGrammar
