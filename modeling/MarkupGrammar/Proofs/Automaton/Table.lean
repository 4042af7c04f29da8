import MarkupGrammar.Proofs.Compilation
import MarkupGrammar.Proofs.Expression.Unfolding

/-! # Automata of tables

A table without cycles may share nodes and refer to missing ones. The construction of an automaton
from a node of it never goes wrong silently (`automaton_of_acyclic`): it fails for a part that is
missing or shared, or it works on the positions of the tree that the node unfolds to. Then it fails
for too many states or for a real ambiguity, or the automaton admits words of that tree only, and
all of them if different leaves of one particle do not overlap.

The last is what the numbers of particles are for: copies of one leaf have one number, and overlaps
between them are no ambiguity. Where different leaves have one number, an overlap is not found, and
words may be missing (`exists_not_admits`). -/

namespace MarkupGrammar

open Construction

/-- After some word, leaves of different particles can come next that match a name in common. -/
def ExpressionTree.IsAmbiguous (e : ExpressionTree Position) : Prop :=
  ∃ (u : List Name) (n : Name) (p q : Nat), e.Next (Leaf.fits none) u p ∧
    e.Next (Leaf.fits none) u q ∧ ∃ x ∈ e.leaves[p]?, ∃ y ∈ e.leaves[q]?,
      x.particle ≠ y.particle ∧ x.leaf.accepts n ∧ y.leaf.accepts n

namespace ExpressionTable

variable {t : ExpressionTable} {c : Option Comparator} {limits : Limits} {root : Nat}
  {e : ExpressionTree Position} {a : Automaton} {f : Failure} {k : Setup}
  {start set : NumberSet}

/-- A set with an overlap is sound for some word. -/
theorem isAmbiguous_of_findsOverlap (h : FindsOverlap none e k start set) : e.IsAmbiguous := by
  obtain ⟨u, hu⟩ := sound_of_reached h.models (h.exact_start _) h.reached
  obtain ⟨p, hp, q, hq, x, hx, y, hy, hne, ho⟩ := exists_of_overlapIn h.models h.overlap
  obtain ⟨n, hxn, hyn⟩ := (Leaf.overlaps_none_iff _ _).mp ho
  exact ⟨u, n, p, q, hu p hp, hu q hq, x, hx, y, hy, hne, hxn, hyn⟩

/-- The limit that the construction can exceed is the one on states. -/
theorem automaton_limit {facts : Facts} {s : Survey} (hrun : Survey.run t root = .ok (facts, s))
    (h : t.automaton c limits root = .error f) (hk : f.HasKind .limitExceeded) :
    ∃ x : Limits.Excess, f = .ofCause (.limit x) ∧ x.quantity = .states := by
  obtain ⟨cause, rfl, hkind⟩ := hk
  have ho := explore_spec c limits (setup facts s).1 (setup facts s).2
  rw [automaton_eq_of_run c limits hrun] at h
  cases hx : explore c limits (setup facts s).1 (limits.maxStates + 1) #[(setup facts s).2] #[] with
  | ok states =>
    rw [hx] at h
    cases h
  | error cause' =>
    rw [hx] at h ho
    obtain rfl : cause' = cause := by
      simpa [Except.mapError, Failure.ofCause, bind, Except.bind] using h
    rcases ho with ⟨x, rfl⟩ | ⟨_, _, _, -, -, rfl⟩
    · exact ⟨x, rfl, explore_limit hx⟩
    · cases hkind

/-- The survey of the root has found the positions of the tree that it unfolds to, and their
facts. -/
structure IsSurveyed (t : ExpressionTable) (root : Nat) (e : ExpressionTree Position) : Prop where
  unfolds : t.Unfolds root e
  run : ∃ f s, Survey.run t root = .ok (f, s) ∧ Survey.Extends e {} s ∧
    f.Describes (e.numbered 0)

/-- How the construction of an automaton from a table without cycles may end. -/
def EndsSoundly (t : ExpressionTable) (root : Nat) : Except Failure Automaton → Prop
  | .ok a => ∃ e, t.IsSurveyed root e ∧
      (∀ w, (Model.children a).Admits none w → w ∈ e.language fun x n => x.leaf.accepts n) ∧
      (Consistent none e → ∀ w,
        (Model.children a).Admits none w ↔ w ∈ e.language fun x n => x.leaf.accepts n)
  | .error f => (∃ d, f = .defect d ∧ Survey.run t root = .error d ∧ Survey.IsOfPart d) ∨
      ∃ e, t.IsSurveyed root e ∧
        ((∃ x : Limits.Excess, f = .ofCause (.limit x) ∧ x.quantity = .states) ∨
          (f.HasKind .ambiguousContentModel ∧ e.IsAmbiguous))

theorem endsSoundly_of_run {facts : Facts} {s : Survey}
    (hrun : Survey.run t root = .ok (facts, s)) (limits : Limits) :
    t.EndsSoundly root (t.automaton none limits root) := by
  obtain ⟨e, he, hext, hdesc⟩ := Survey.run_unfolds hrun
  have hs : t.IsSurveyed root e := ⟨he, facts, s, hrun, hext, hdesc⟩
  have ho := automaton_of_run none limits hrun hext hdesc
  cases ha : t.automaton none limits root with
  | ok a =>
    rw [ha] at ho
    obtain ⟨k, start, found, h⟩ := ho
    have hfits : (fun (x : Position) n => (x.leaf.accepts n : Prop)) =
        fun x n => x.leaf.fits none n := by
      funext x n
      exact propext (x.leaf.fits_none n).symm
    refine ⟨e, hs, fun w => ?_, fun hc w => ?_⟩ <;> rw [hfits]
    · exact Automaton.admits_sound h
    · exact Automaton.admits_iff h
        (uniqueRuns_of_consistent h hc fun _ _ _ => overlaps_of_fits_none)
  | error f =>
    rw [ha] at ho
    refine .inr ⟨e, hs, ?_⟩
    rcases ho with hlim | ⟨hamb, k, start, set, hset⟩
    · exact .inl (automaton_limit hrun ha hlim)
    · exact .inr ⟨hamb, isAmbiguous_of_findsOverlap hset⟩

theorem automaton_of_error {d : Defect} (hrun : Survey.run t root = .error d) :
    t.automaton c limits root = .error (.defect d) := by
  unfold automaton
  rw [hrun]
  rfl

theorem automaton_ne_defect (h : ∃ e ns, t.Holds root e ns ∧ ns.Nodup) (d : Defect) :
    t.automaton c limits root ≠ .error (.defect d) := by
  obtain ⟨e, ns, h, hn⟩ := h
  have ho := automaton_spec c limits h hn
  intro ha
  rw [ha] at ho
  rcases ho with ⟨_, hd, -⟩ | ⟨⟨_, hd, -⟩, -⟩ <;> exact nomatch hd

/-- **From a table without cycles an automaton is never constructed wrongly.** If no node below the
root is missing or shared, the construction does not fail for a defect of the table. -/
theorem automaton_of_acyclic (ht : t.Acyclic) (limits : Limits) (root : Nat) :
    t.EndsSoundly root (t.automaton none limits root) ∧
      (t.Complete root → t.Unshared root → ∀ d,
        t.automaton none limits root ≠ .error (.defect d)) := by
  refine ⟨?_, fun hc hu => automaton_ne_defect (exists_holds_nodup ht hc hu)⟩
  cases hrun : Survey.run t root with
  | ok r => exact endsSoundly_of_run hrun limits
  | error d =>
    rw [automaton_of_error hrun]
    exact .inl ⟨d, rfl, hrun, Survey.run_error ht hrun⟩

/-- An element at two places: optional, and then any number of times. -/
def sharedLeaf : ExpressionTable where
  nodes := #[.leaf (.element (.unqualified "a")) 0, .optional 0, .zeroOrMore 0, .sequence 1 2]

/-- The tree of the shared element. -/
def sharedLeafTree : ExpressionTree Position :=
  .sequence (.optional (.leaf ⟨.element (.unqualified "a"), 0⟩))
    (.zeroOrMore (.leaf ⟨.element (.unqualified "a"), 0⟩))

theorem sharedLeaf_acyclic : sharedLeaf.Acyclic := acyclic_of_parts_lt (by decide)

theorem sharedLeaf_unfolds : sharedLeaf.Unfolds 3 sharedLeafTree :=
  ⟨_, .sequence rfl (.optional rfl (.leaf rfl)) (.zeroOrMore rfl (.leaf rfl))⟩

theorem reaches_sharedLeaf {i : Nat} : sharedLeaf.Reaches 1 i ↔ i = 1 ∨ i = 0 := by
  have h₁ : sharedLeaf.get 1 = .ok (.optional 0) := rfl
  have h₀ : sharedLeaf.get 0 = .ok (.leaf (.element (.unqualified "a")) 0) := rfl
  simp [reaches_iff h₁, reaches_iff h₀, Expression.parts]

theorem sharedLeaf_complete : sharedLeaf.Complete 1 := by
  intro i hi
  rcases reaches_sharedLeaf.mp hi with rfl | rfl <;> exact ⟨_, rfl⟩

theorem sharedLeaf_unshared : sharedLeaf.Unshared 1 where
  parent ha hb hai hbi := by
    have no_part {i : Nat} : ¬ sharedLeaf.HasPart 0 i := by
      rintro ⟨x, hx, hi⟩
      cases hx
      exact nomatch hi
    rcases reaches_sharedLeaf.mp ha with rfl | rfl
    · rcases reaches_sharedLeaf.mp hb with rfl | rfl
      · rfl
      · exact absurd hbi no_part
    · exact absurd hai no_part
  parts ha hx := by
    rcases reaches_sharedLeaf.mp ha with rfl | rfl <;> cases hx <;> decide

theorem automaton_of_acyclic_sharedLeaf :
    sharedLeaf.Acyclic ∧ sharedLeaf.Unfolds 3 sharedLeafTree ∧ Consistent none sharedLeafTree ∧
      (∃ a, sharedLeaf.automaton none {} 3 = .ok a ∧ ∀ w, (Model.children a).Admits none w ↔
        w ∈ sharedLeafTree.language fun x n => x.leaf.accepts n) ∧
      sharedLeaf.Complete 1 ∧ sharedLeaf.Unshared 1 ∧
      ∀ d, sharedLeaf.automaton none {} 1 ≠ .error (.defect d) := by
  have hcons : Consistent none sharedLeafTree := by
    refine OneLeaf.consistent fun x hx y hy _ => ?_
    simp_all [sharedLeafTree, ExpressionTree.leaves]
  refine ⟨sharedLeaf_acyclic, sharedLeaf_unfolds, hcons, ?_, sharedLeaf_complete,
    sharedLeaf_unshared, (automaton_of_acyclic sharedLeaf_acyclic {} 1).2 sharedLeaf_complete
      sharedLeaf_unshared⟩
  have hok : (sharedLeaf.automaton none {} 3).isOk := by decide +kernel
  obtain ⟨a, ha⟩ := exists_of_isOk hok
  have h := (automaton_of_acyclic sharedLeaf_acyclic {} 3).1
  rw [ha] at h
  obtain ⟨e, he, -, hadmits⟩ := h
  obtain rfl := he.unfolds.unique sharedLeaf_unfolds
  exact ⟨a, ha, hadmits hcons⟩

/-- An element, or any element and then one of another name, where the first two leaves have one
number. -/
def oneNumber : ExpressionTable where
  nodes := #[.leaf (.element (.unqualified "a")) 0, .leaf (.wildcard ⟨.any, .strict⟩) 0,
    .leaf (.element (.unqualified "b")) 1, .sequence 1 2, .choice 0 3]

/-- Its automaton, which takes an `a` for the first leaf. -/
def oneNumberAutomaton : Automaton where
  symbols := #[⟨.element (.unqualified "a"), none⟩, ⟨.wildcard ⟨.any, .strict⟩, none⟩,
    ⟨.element (.unqualified "b"), none⟩]
  states := #[⟨[(0, 1), (1, 2)], false⟩, ⟨[], true⟩, ⟨[(2, 1)], false⟩]

theorem exists_not_admits : oneNumber.Acyclic ∧ ∃ e, oneNumber.Unfolds 4 e ∧
    oneNumber.automaton none {} 4 = .ok oneNumberAutomaton ∧
    [.unqualified "a", .unqualified "b"] ∈ (e.language fun x n => x.leaf.accepts n) ∧
    ¬ (Model.children oneNumberAutomaton).Admits none [.unqualified "a", .unqualified "b"] := by
  have hun : oneNumber.Unfolds 4 _ :=
    ⟨_, .choice rfl (.leaf rfl) (.sequence rfl (.leaf rfl) (.leaf rfl))⟩
  refine ⟨acyclic_of_parts_lt (by decide), _, hun, by decide +kernel, .inr ?_, ?_⟩
  · exact ⟨[.unqualified "a"], ⟨_, rfl, rfl⟩, [.unqualified "b"],
      ⟨_, by simp [Leaf.accepts], rfl⟩, rfl⟩
  · rintro ⟨st, hrun, -⟩
    have hnone : (Model.children oneNumberAutomaton).run? none (.children 0)
        [.unqualified "a", .unqualified "b"] = none := by decide
    exact Option.some_ne_none st (hrun.symm.trans hnone)

end ExpressionTable

end MarkupGrammar
