import MarkupGrammar.Proofs.Model
import MarkupGrammar.Content

/-! # What of a comparator counts

Compiling content and offering children ask a comparator whether names are related and whether a
name reaches a namespace, and use nothing but how these questions are decided. So comparators that
decide them alike lead to the same overlaps, the same models and the same answers to children. A
comparator that never answers decides them as if there were none (`IsSilent.eq_none`). -/

namespace MarkupGrammar

open Construction

/-! ## Deciding alike -/

namespace Comparator

/-- Every question is decided alike. -/
structure SameAnswers (c c' : Option Comparator) : Prop where
  isRelated : ∀ a b, isRelated c a b = isRelated c' a b
  reachesSpace : ∀ n space, reachesSpace c n space = reachesSpace c' n space

/-- No question has an answer. -/
structure IsSilent (c : Comparator) : Prop where
  related : ∀ a b, ∃ reason, c.related a b = .error reason
  reaches : ∀ n space outside, ∃ reason, c.reaches n space outside = .error reason

/-- Silence decides every question with no. -/
theorem IsSilent.sameAnswers {c : Comparator} (h : c.IsSilent) : SameAnswers (some c) none where
  isRelated a b := by
    obtain ⟨reason, hr⟩ := h.related a b
    simp [Comparator.isRelated, hr, answer]
  reachesSpace n space := by
    obtain ⟨reason, hr⟩ := h.reaches n space false
    simp [Comparator.reachesSpace, hr, answer]

theorem isSilent_failing (reason : String) : (failing reason).IsSilent :=
  ⟨fun _ _ => ⟨reason, rfl⟩, fun _ _ _ => ⟨reason, rfl⟩⟩

end Comparator

section Congr

variable {c c' : Option Comparator} (h : Comparator.SameAnswers c c')

include h

/-! ## Overlaps -/

theorem Leaf.overlaps_congr (a b : Leaf) : a.overlaps c b = a.overlaps c' b := by
  have helement (w : Wildcard) (n : Name) : w.overlapsElement c n = w.overlapsElement c' n := by
    unfold Wildcard.overlapsElement
    cases w.range with
    | any | other _ => rfl
    | only space => simp only [h.reachesSpace]
  cases a with
  | element x =>
    cases b with
    | element y => simp only [overlaps, h.isRelated]
    | wildcard w => exact helement w x
  | wildcard v =>
    cases b with
    | element y => exact helement v y
    | wildcard w => rfl

/-! ## Compiling -/

theorem Construction.overlap?_congr (ps : List Position) : overlap? c ps = overlap? c' ps := by
  have hwith (p : Position) (ps : List Position) : overlapWith? c p ps = overlapWith? c' p ps := by
    simp only [overlapWith?, Leaf.overlaps_congr h]
  induction ps with
  | nil => rfl
  | cons p ps ih => rw [overlap?, overlap?, hwith, ih]

theorem Construction.explore_congr (limits : Limits) (k : Setup) (fuel : Nat)
    (found : Array NumberSet) (done : Array AutomatonState) :
    explore c limits k fuel found done = explore c' limits k fuel found done := by
  induction fuel generalizing found done with
  | zero => rfl
  | succ fuel ih => simp only [explore, overlap?_congr h, ih]

theorem ExpressionTable.automaton_congr (t : ExpressionTable) (limits : Limits) (root : Nat) :
    t.automaton c limits root = t.automaton c' limits root := by
  simp only [automaton, explore_congr h]

theorem AllGroup.ofParticle_congr (p : Particle) : ofParticle c p = ofParticle c' p := by
  have hadd : addMember c = addMember c' := by
    funext members p
    cases p with
    | group _ _ _ => rfl
    | leaf l o => simp only [addMember, Leaf.overlaps_congr h]
  unfold ofParticle
  rw [hadd]

theorem ContentDraft.compile_congr (limits : Limits) (d : ContentDraft) :
    d.compile c limits = d.compile c' limits := by
  have hparticle (p : Particle) : compileParticle c limits p = compileParticle c' limits p := by
    simp only [compileParticle, AllGroup.ofParticle_congr h, ExpressionTable.automaton_congr h]
  cases d with
  | empty | any | mixedSimple _ | simple _ => rfl
  | mixedComplex p? =>
    cases p? with
    | none => rfl
    | some p => simp only [compile, hparticle]
  | children p => simp only [compile, hparticle]

/-! ## Offering children -/

theorem Symbol.rank?_congr (n : Name) : Symbol.rank? c n = Symbol.rank? c' n := by
  funext s
  unfold rank?
  cases s.leaf with
  | element x => simp only [h.isRelated]
  | wildcard w => rfl

theorem Model.accept_congr (m : Model) (st : ModelState) (n : Name) :
    m.accept c st n = m.accept c' st n := by
  have hgroup (g : AllGroup) (counts : List Nat) : g.accept c counts n = g.accept c' counts n := by
    simp only [AllGroup.accept, Symbol.rank?_congr h]
  have hstep (a : Automaton) (i : Nat) : a.step? c i n = a.step? c' i n := by
    simp only [Automaton.step?, Symbol.rank?_congr h]
  cases m with
  | empty => cases st <;> rfl
  | any | simple => rfl
  | mixed symbols => simp only [accept, Symbol.rank?_congr h]
  | children a =>
    cases st with
    | children i => simp only [accept, hstep]
    | empty _ | any | mixed | all _ | simple => rfl
  | all g =>
    cases st with
    | all counts => simp only [accept, hgroup]
    | empty _ | any | mixed | children _ | simple => rfl

end Congr

/-- What a model answers to the children of a word from a state on, with the state after each, and
whether the content may end after them. Children that are not matched are passed over. -/
def Model.transcript (m : Model) (c : Option Comparator) (st : ModelState) :
    List Name → List (Match × ModelState) × Except (List Leaf) Unit
  | [] => ([], m.finish st)
  | n :: w =>
    let reply := m.accept c st n
    let (replies, last) := m.transcript c reply.2 w
    (reply :: replies, last)

theorem Model.transcript_congr {c c' : Option Comparator} (h : Comparator.SameAnswers c c')
    (m : Model) (st : ModelState) (w : List Name) : m.transcript c st w = m.transcript c' st w := by
  induction w generalizing st with
  | nil => rfl
  | cons n w ih => rw [transcript, transcript, m.accept_congr h, ih]

/-! ## Silence -/

namespace Comparator

/-- **A comparator that never answers is like none**: the same leaves overlap, all content compiles
to the same model or fails with the same faults, after whatever has been compiled before, and every
model gives the same answers to every word in every state. -/
theorem IsSilent.eq_none {c : Comparator} (h : c.IsSilent) :
    (∀ a b : Leaf, a.overlaps (some c) b = a.overlaps none b) ∧
    (∀ (limits : Limits) (d : ContentDraft) (s : Lowering),
      (d.compile (some c) limits).run.run s = (d.compile none limits).run.run s) ∧
    ∀ (m : Model) (st : ModelState) (w : List Name),
      m.transcript (some c) st w = m.transcript none st w := by
  have hsame := h.sameAnswers
  refine ⟨Leaf.overlaps_congr hsame, fun limits d s => ?_, Model.transcript_congr hsame⟩
  rw [d.compile_congr hsame]

/-- With a comparator that has broken down, a choice of two names compiles. -/
theorem IsSilent.eq_none_failing : (failing "out of order").IsSilent ∧
    let p : Particle := .group .choice
      [.leaf (.element (.unqualified "title")) .once,
        .leaf (.element (.unqualified "name")) .once] .once
    (((ContentDraft.children p).compile (some (failing "out of order")) {}).run.run {}).1.isOk := by
  have hsilent := isSilent_failing "out of order"
  refine ⟨hsilent, ?_⟩
  intro p
  rw [(IsSilent.eq_none hsilent).2.1]
  decide +kernel

end Comparator

end MarkupGrammar
