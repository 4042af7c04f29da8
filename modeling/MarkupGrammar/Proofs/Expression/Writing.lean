import MarkupGrammar.Proofs.Expression.Outline
import MarkupGrammar.Proofs.Expression.Unfolding
import MarkupGrammar.Proofs.Lowering.Spec
import MarkupGrammar.Proofs.Particle.Use
import MarkupGrammar.Proofs.Path.Notation

/-! # Writing expressions

A node that stands for a tree is written as the outline of the tree (`Holds.writes`), in parentheses
if that is a word (`text_of_holds`). So where the leaves are elements in no namespace with plain
names, the written form determines the language (`language_eq_of_text_eq`). -/

namespace MarkupGrammar

open Outline

namespace Outline

/-- The text of an outline as a string. -/
def written (x : Outline) : String := String.ofList x.text

/-- The outline in parentheses if it is a word. -/
def wrapped : Outline → Outline
  | word w mark => group false (word w mark) [] none
  | x => x

theorem language_wrapped (x : Outline) : x.wrapped.language = x.language := by
  cases x with
  | word w mark => simp [wrapped, language, languages, groupLanguage_nil, markLanguage]
  | group c first rest mark => rfl

theorem plain_wrapped {x : Outline} (h : x.Plain) : x.wrapped.Plain := by
  cases x with
  | word w mark => exact ⟨h, trivial⟩
  | group c first rest mark => exact h

/-- A plain outline begins with a parenthesis unless it is a word. -/
theorem written_wrapped {x : Outline} (h : x.Plain) : x.wrapped.written =
    if x.written.toList.head? == some '(' then x.written else s!"({x.written})" := by
  cases x with
  | word w mark =>
    have hw : IsWord w := h
    obtain ⟨c, w, rfl⟩ := List.exists_cons_of_ne_nil hw.ne_nil
    have hc : c ≠ '(' := fun hc => hw.not_mark c List.mem_cons_self (by simp [hc, marks])
    refine String.toList_inj.mp ?_
    simp [written, wrapped, text, restText, markText, hc, toString]
  | group c first rest mark => simp [written, wrapped, text]

end Outline

theorem ExpressionTree.height_pos (e : ExpressionTree Position) : 0 < e.height := by
  cases e <;> simp [ExpressionTree.height]

namespace ExpressionTable

variable {t : ExpressionTable} {i a b fuel : Nat} {e ea eb : ExpressionTree Position}
  {ns : List Nat} {c : Bool} {x : Expression} {limits : Limits} {p : Particle}

/-! ## Nodes -/

/-- A node is written as the outline of its tree, and its members as those of the outline. -/
structure Writes (t : ExpressionTable) (i : Nat) (e : ExpressionTree Position) : Prop where
  text {fuel : Nat} (h : e.height ≤ fuel) : t.textWithin fuel i = .ok e.outline.written
  members (c : Bool) {fuel : Nat} (h : e.height ≤ fuel) :
    ∃ ms, t.membersWithin c fuel i = .ok ms ∧ ∀ {fuel' : Nat}, e.height ≤ fuel' →
      List.Forall₂ (fun m x => t.textWithin fuel' m = .ok x.written) ms (e.outline.members c)

/-- The node of two parts in a choice or in sequence. -/
def chainNode (c : Bool) (a b : Nat) : Expression := if c then .choice a b else .sequence a b

theorem membersWithin_chain (h : t.get i = .ok (chainNode c a b)) :
    t.membersWithin c (fuel + 1) i =
      (do return (← t.membersWithin c fuel a) ++ (← t.membersWithin c fuel b)) := by
  rw [membersWithin, h]
  cases c <;> rfl

theorem textWithin_chain (h : t.get i = .ok (chainNode c a b)) : t.textWithin (fuel + 1) i =
    t.listText (t.textWithin fuel) c (String.singleton (separator c)) i := by
  rw [textWithin, h]
  cases c <;> rfl

/-- The node that repeats a part. -/
def repetitionNode (a : Nat) : RepetitionMark → Expression
  | .optional => .optional a
  | .zeroOrMore => .zeroOrMore a
  | .oneOrMore => .oneOrMore a

theorem textWithin_repetition {m : RepetitionMark} (h : t.get i = .ok (repetitionNode a m)) :
    t.textWithin (fuel + 1) i =
      t.repetitionText (t.textWithin fuel) (String.singleton m.char) a := by
  rw [textWithin, h]
  cases m <;> rfl

/-- A node that is no chain of the kind is its only member. -/
theorem membersWithin_self (h : t.get i = .ok x) (hx : ∀ a b, x ≠ chainNode c a b) :
    t.membersWithin c (fuel + 1) i = .ok [i] := by
  rw [membersWithin, h]
  cases x with
  | choice a b | sequence a b =>
    cases c
    · first | rfl | exact absurd rfl (hx a b)
    · first | rfl | exact absurd rfl (hx a b)
  | _ => rfl

theorem exists_members_self (h : t.get i = .ok x) (hx : ∀ a b, x ≠ chainNode c a b)
    (hsplit : e.outline.split c = (e.outline, []))
    (htext : ∀ {fuel}, e.height ≤ fuel → t.textWithin fuel i = .ok e.outline.written)
    (hfuel : e.height ≤ fuel) :
    ∃ ms, t.membersWithin c fuel i = .ok ms ∧ ∀ {fuel' : Nat}, e.height ≤ fuel' →
      List.Forall₂ (fun m x => t.textWithin fuel' m = .ok x.written) ms (e.outline.members c) := by
  obtain ⟨fuel, rfl⟩ := Nat.exists_eq_add_of_lt (e.height_pos.trans_le hfuel)
  rw [Nat.zero_add]
  refine ⟨[i], membersWithin_self h hx, fun hfuel' => ?_⟩
  rw [Outline.members, hsplit]
  exact .cons (htext hfuel') .nil

/-- A node that is no chain, and whose outline is none. -/
theorem writes_of_text (h : t.get i = .ok x) (hx : ∀ c a b, x ≠ chainNode c a b)
    (hsplit : ∀ c, e.outline.split c = (e.outline, []))
    (htext : ∀ {fuel}, e.height ≤ fuel + 1 → t.textWithin (fuel + 1) i = .ok e.outline.written) :
    t.Writes i e := by
  have htext {fuel : Nat} (hfuel : e.height ≤ fuel) :
      t.textWithin fuel i = .ok e.outline.written := by
    obtain ⟨fuel, rfl⟩ := Nat.exists_eq_add_of_lt (e.height_pos.trans_le hfuel)
    rw [Nat.zero_add] at hfuel ⊢
    exact htext hfuel
  exact ⟨htext, fun c _ => exists_members_self h (hx c) (hsplit c) htext⟩

/-- The members of a chain are those of its parts. -/
theorem exists_members_chain (h : t.get i = .ok (chainNode c a b)) (ha : t.Writes a ea)
    (hb : t.Writes b eb) (hea : ea.height ≤ fuel) (heb : eb.height ≤ fuel) :
    ∃ ms, t.membersWithin c (fuel + 1) i = .ok ms ∧ ∀ {fuel' : Nat}, ea.height ≤ fuel' →
      eb.height ≤ fuel' → List.Forall₂ (fun m x => t.textWithin fuel' m = .ok x.written) ms
        ((chain c ea.outline eb.outline).members c) := by
  obtain ⟨ma, hma, hta⟩ := ha.members c hea
  obtain ⟨mb, hmb, htb⟩ := hb.members c heb
  refine ⟨ma ++ mb, ?_, fun hea' heb' => ?_⟩
  · rw [membersWithin_chain h, hma, hmb]
    rfl
  · rw [Outline.members_chain]
    exact List.rel_append (hta hea') (htb heb')

/-- A chain is written as its members with separators between them. -/
theorem textWithin_of_chain (h : t.get i = .ok (chainNode c a b)) (ha : t.Writes a ea)
    (hb : t.Writes b eb) (hea : ea.height ≤ fuel) (heb : eb.height ≤ fuel)
    (hea' : ea.height ≤ t.size) (heb' : eb.height ≤ t.size) :
    t.textWithin (fuel + 1) i = .ok (chain c ea.outline eb.outline).written := by
  obtain ⟨ms, hms, htexts⟩ := exists_members_chain h ha hb hea' heb'
  have hmap : ms.mapM (t.textWithin fuel) =
      .ok (((chain c ea.outline eb.outline).members c).map written) := by
    rw [mapM_eq_ok_iff, List.forall₂_map_right_iff]
    exact htexts hea heb
  rw [textWithin_chain h, listText, hms]
  change ms.mapM (t.textWithin fuel) >>= _ = _
  rw [hmap]
  refine congrArg Except.ok (String.toList_inj.mp (Eq.trans ?_ String.toList_ofList.symm))
  rw [Outline.text_chain, ← Outline.members_chain]
  simp [Text.joined, String.toList_intercalate, Function.comp_def, written, toString]

theorem writes_chain (h : t.get i = .ok (chainNode c a b)) (ha : t.Writes a ea)
    (hb : t.Writes b eb) (he : e.outline = chain c ea.outline eb.outline)
    (hheight : e.height = max ea.height eb.height + 1) (hsize : e.height ≤ t.size + 1) :
    t.Writes i e := by
  have htext {fuel : Nat} (hfuel : e.height ≤ fuel) :
      t.textWithin fuel i = .ok e.outline.written := by
    obtain ⟨fuel, rfl⟩ := Nat.exists_eq_add_of_lt (e.height_pos.trans_le hfuel)
    rw [he]
    exact textWithin_of_chain h ha hb (by omega) (by omega) (by omega) (by omega)
  refine ⟨htext, fun c' fuel hfuel => ?_⟩
  by_cases hc : c = c'
  · subst hc
    obtain ⟨fuel, rfl⟩ := Nat.exists_eq_add_of_lt (e.height_pos.trans_le hfuel)
    rw [Nat.zero_add, he]
    have hea : ea.height ≤ fuel := by omega
    have heb : eb.height ≤ fuel := by omega
    obtain ⟨ms, hms, htexts⟩ := exists_members_chain h ha hb hea heb
    exact ⟨ms, hms, fun hfuel' => htexts (by omega) (by omega)⟩
  · refine exists_members_self h (fun a' b' hab => ?_) (he ▸ split_chain_of_ne hc) htext hfuel
    cases c <;> cases c' <;> simp_all [chainNode]

/-- The repetitions are the nodes whose outlines have marks. -/
theorem Holds.exists_isRepetition (h : t.Holds i e ns) :
    ∃ x, t.get i = .ok x ∧ x.isRepetition = e.outline.isMarked := by
  cases h with
  | empty h | leaf h | choice h | sequence h => exact ⟨_, h, rfl⟩
  | optional h | zeroOrMore h | oneOrMore h => exact ⟨_, h, isMarked_repeatedBy.symm⟩

/-- A repetition is written with its mark. -/
theorem repetitionText_eq {m : RepetitionMark} (h : t.Holds a ea ns) (ha : t.Writes a ea)
    (hea : ea.height ≤ fuel) :
    t.repetitionText (t.textWithin fuel) (String.singleton m.char) a =
      .ok (ea.outline.repeatedBy m).written := by
  obtain ⟨x, hx, hmarked⟩ := h.exists_isRepetition
  rw [repetitionText, hx, ha.text hea]
  refine congrArg Except.ok (String.toList_inj.mp (Eq.trans ?_ String.toList_ofList.symm))
  rw [text_repeatedBy, hmarked]
  cases ea.outline.isMarked <;> simp [written, toString]

theorem writes_repetition {m : RepetitionMark} (h : t.get i = .ok (repetitionNode a m))
    (ha : t.Holds a ea ns) (hw : t.Writes a ea) (he : e.outline = ea.outline.repeatedBy m)
    (hheight : e.height = ea.height + 1) : t.Writes i e := by
  refine writes_of_text h (fun c a' b' hab => ?_) (fun _ => ?_) fun hfuel => ?_
  · cases m <;> cases c <;> exact nomatch hab
  · rw [he]
    exact split_of_isMarked isMarked_repeatedBy
  · rw [textWithin_repetition h, he]
    exact repetitionText_eq ha hw (by omega)

/-- **A node that stands for a tree is written as the outline of the tree.** -/
theorem Holds.writes (h : t.Holds i e ns) (hsize : e.height ≤ t.size + 1) : t.Writes i e := by
  induction h with
  | empty h =>
    refine writes_of_text h (fun c _ _ hc => ?_) (fun _ => rfl) fun _ => ?_
    · cases c <;> exact nomatch hc
    · rw [textWithin, h]
      rfl
  | leaf h =>
    refine writes_of_text h (fun c _ _ hc => ?_) (fun _ => rfl) fun _ => ?_
    · cases c <;> exact nomatch hc
    · rw [textWithin, h]
      refine congrArg Except.ok (String.toList_inj.mp ?_)
      simp [ExpressionTree.outline, written, Outline.text, markText]
  | @choice i a b ea eb na nb h _ _ iha ihb =>
    rw [ExpressionTree.height] at hsize
    exact writes_chain (c := true) h (iha (by omega)) (ihb (by omega)) rfl rfl hsize
  | @sequence i a b ea eb na nb h _ _ iha ihb =>
    rw [ExpressionTree.height] at hsize
    exact writes_chain (c := false) h (iha (by omega)) (ihb (by omega)) rfl rfl hsize
  | @optional i a ea na h ha ih =>
    rw [ExpressionTree.height] at hsize
    exact writes_repetition (m := .optional) h ha (ih (by omega)) rfl rfl
  | @zeroOrMore i a ea na h ha ih =>
    rw [ExpressionTree.height] at hsize
    exact writes_repetition (m := .zeroOrMore) h ha (ih (by omega)) rfl rfl
  | @oneOrMore i a ea na h ha ih =>
    rw [ExpressionTree.height] at hsize
    exact writes_repetition (m := .oneOrMore) h ha (ih (by omega)) rfl rfl

/-! ## Roots -/

/-- **A root is written as the outline of its tree, in parentheses.** -/
theorem text_of_holds (h : t.Holds i e ns) (hn : ns.Nodup) (hp : e.outline.Plain) :
    t.text i = .ok e.outline.wrapped.written := by
  have hsize := h.height_le_size hn
  have hw := h.writes (hsize.trans (Nat.le_succ _))
  rw [text, hw.text (hsize.trans (Nat.le_succ _)), written_wrapped hp]
  rfl

theorem language_eq_of_written {e e' : ExpressionTree Position}
    (he : ∀ x ∈ e.leaves, x.leaf.IsPlain) (he' : ∀ x ∈ e'.leaves, x.leaf.IsPlain)
    (h : e.outline.wrapped.written = e'.outline.wrapped.written) :
    e.language (fun x n => x.leaf.accepts n) = e'.language fun x n => x.leaf.accepts n := by
  have htext : e.outline.wrapped.text = e'.outline.wrapped.text := String.ofList_inj.mp h
  have hl := language_eq_of_text (plain_wrapped (ExpressionTree.plain_outline he))
    (plain_wrapped (ExpressionTree.plain_outline he')) htext
  rw [language_wrapped, language_wrapped, ExpressionTree.language_outline he,
    ExpressionTree.language_outline he'] at hl
  exact hl

end ExpressionTable

/-! ## Lowered particles -/

/-- The leaves of the particle are elements in no namespace with plain names. -/
def Particle.IsPlain (p : Particle) : Prop := ∀ l ∈ p.leaves, l.IsPlain

/-- Names without colons are plain, the one of the empty expression aside. -/
theorem Leaf.isPlain_of_isUncolonized {s : String} (h : Lexical.isUncolonized s.toList)
    (hs : s ≠ "EMPTY") : Leaf.IsPlain (.element (.unqualified s)) := by
  refine ⟨s, rfl, ⟨fun hnil => ?_, fun c hc hmark => ?_⟩, hs⟩
  · rw [hnil] at h
    exact absurd h Bool.false_ne_true
  · have hname := Lexical.isNameChar_of_mem h hc
    have hno : marks.all fun c => !Lexical.isNameChar c := by decide
    simpa [hname] using List.all_eq_true.mp hno c hmark

namespace Lowering

/-- The node is one that lowering the particle has made, in a table that may have grown since. -/
def Yields (limits : Limits) (p : Particle) (t : ExpressionTable) (root : Nat) : Prop :=
  ∃ s s', (particle limits p).run.run s = (.ok root, s') ∧ s'.table.Grows t

variable {limits limits' : Limits} {p p' : Particle} {t t' : ExpressionTable} {root root' : Nat}

theorem Yields.exists_holds (h : Yields limits p t root) : p.Lowerable ∧
    ∃ k ns, t.Holds root (p.positionTree k) ns ∧ ns.Nodup := by
  obtain ⟨s, s', hrun, hgrows⟩ := h
  have hspec := particle_spec limits p (s := s) (ExpressionTable.apart_nil _)
  unfold Ensures at hspec
  rw [hrun] at hspec
  obtain ⟨ns, hns, hn⟩ := hspec.2.apart.holds
  exact ⟨hspec.1, s.nextParticle, ns, hns.grows hgrows, hn⟩

theorem plain_positionTree {k : Nat} (hl : p.Lowerable) (hp : p.IsPlain) :
    ∀ x ∈ (p.positionTree k).leaves, x.leaf.IsPlain := by
  rw [Particle.leaves_positionTree]
  intro y hy
  obtain ⟨x, hx, rfl⟩ := List.mem_map.mp hy
  have hu : p.Uses x.leaf := (Particle.exists_mem_tree_iff k p hl).mp ⟨x, hx, rfl⟩
  exact hp _ ((Particle.mem_leaves_iff p).mpr (.inl hu))

/-- **The written forms of lowered particles determine their languages.** -/
theorem language_eq_of_text_eq (hp : p.IsPlain) (hp' : p'.IsPlain) (h : Yields limits p t root)
    (h' : Yields limits' p' t' root') : ∃ e e' s s', t.Unfolds root e ∧ t'.Unfolds root' e' ∧
      t.text root = .ok s ∧ t'.text root' = .ok s' ∧
      (s = s' → e.language (fun x n => x.leaf.accepts n) =
        e'.language fun x n => x.leaf.accepts n) := by
  obtain ⟨hl, k, ns, hns, hn⟩ := h.exists_holds
  obtain ⟨hl', k', ns', hns', hn'⟩ := h'.exists_holds
  have he := plain_positionTree (k := k) hl hp
  have he' := plain_positionTree (k := k') hl' hp'
  exact ⟨_, _, _, _, ⟨ns, hns⟩, ⟨ns', hns'⟩,
    ExpressionTable.text_of_holds hns hn (ExpressionTree.plain_outline he),
    ExpressionTable.text_of_holds hns' hn' (ExpressionTree.plain_outline he'),
    ExpressionTable.language_eq_of_written he he'⟩

/-- An element and a sequence of two, in sequence. -/
def nestedSequence : Particle :=
  .group .sequence
    [.leaf (.element (.unqualified "a")) .once,
      .group .sequence
        [.leaf (.element (.unqualified "b")) .optional,
          .leaf (.element (.unqualified "c")) ⟨2, some 3⟩]
        .once]
    .once

/-- The same elements in one sequence, with the repetitions written out. -/
def writtenOutSequence : Particle :=
  .group .sequence
    [.leaf (.element (.unqualified "a")) .once, .leaf (.element (.unqualified "b")) .optional,
      .leaf (.element (.unqualified "c")) .once, .leaf (.element (.unqualified "c")) .once,
      .leaf (.element (.unqualified "c")) .optional]
    .once

theorem language_eq_of_text_eq_nestedSequence :
    nestedSequence.IsPlain ∧ writtenOutSequence.IsPlain ∧ ∃ t root t' root',
      Yields {} nestedSequence t root ∧ Yields {} writtenOutSequence t' root' ∧
      t.text root = .ok "(a,b?,c,c,c?)" ∧ t'.text root' = .ok "(a,b?,c,c,c?)" ∧
      ∃ e e', t.Unfolds root e ∧ t'.Unfolds root' e' ∧
        e.language (fun x n => x.leaf.accepts n) = e'.language fun x n => x.leaf.accepts n := by
  have plain (s : String) (h : Lexical.isUncolonized s.toList) (hs : s ≠ "EMPTY") :=
    Leaf.isPlain_of_isUncolonized h hs
  have ha := plain "a" (by decide) (by decide)
  have hb := plain "b" (by decide) (by decide)
  have hc := plain "c" (by decide) (by decide)
  have hp : nestedSequence.IsPlain := by
    simp [Particle.IsPlain, nestedSequence, Particle.leaves, Particle.leavesOf, ha, hb, hc]
  have hp' : writtenOutSequence.IsPlain := by
    simp [Particle.IsPlain, writtenOutSequence, Particle.leaves, Particle.leavesOf, ha, hb, hc]
  have made (p : Particle) (root : Nat) (h : ((particle {} p).run.run {}).1.toOption = some root) :
      Yields {} p ((particle {} p).run.run {}).2.table root :=
    ⟨{}, _, Prod.ext (eq_ok_of_toOption h) rfl, ExpressionTable.Grows.refl _⟩
  have h := made nestedSequence 10 (by decide +kernel)
  have h' := made writtenOutSequence 10 (by decide +kernel)
  have ht := eq_ok_of_toOption (x := ExpressionTable.text
    ((particle {} nestedSequence).run.run {}).2.table 10) (a := "(a,b?,c,c,c?)") (by decide +kernel)
  have ht' := eq_ok_of_toOption (x := ExpressionTable.text
    ((particle {} writtenOutSequence).run.run {}).2.table 10) (a := "(a,b?,c,c,c?)")
    (by decide +kernel)
  obtain ⟨e, e', s, s', he, he', hs, hs', hl⟩ := language_eq_of_text_eq hp hp' h h'
  obtain rfl := Except.ok.inj (ht.symm.trans hs)
  obtain rfl := Except.ok.inj (ht'.symm.trans hs')
  exact ⟨hp, hp', _, _, _, _, h, h', ht, ht', e, e', he, he', hl rfl⟩

end Lowering

end MarkupGrammar
