import MarkupGrammar.Expression.Positions
import MarkupGrammar.Proofs.Particle.Language

/-! # Trees of content expressions

The tree that a node of a table stands for, with a label at each leaf, and the language of a tree
over letters that are related to the labels. `Holds` says that a node of a table stands for a tree,
and which nodes it takes. -/

namespace MarkupGrammar

open Computability

/-- A content expression without a table, with labels for leaves. -/
inductive ExpressionTree (ι : Type) where
  | empty
  | leaf (x : ι)
  | choice (a b : ExpressionTree ι)
  | sequence (a b : ExpressionTree ι)
  | optional (a : ExpressionTree ι)
  | zeroOrMore (a : ExpressionTree ι)
  | oneOrMore (a : ExpressionTree ι)

namespace ExpressionTree

variable {ι κ α : Type}

/-- The labels of the leaves in order. -/
def leaves : ExpressionTree ι → List ι
  | empty => []
  | leaf x => [x]
  | choice a b | sequence a b => a.leaves ++ b.leaves
  | optional a | zeroOrMore a | oneOrMore a => a.leaves

/-- The number of levels. -/
def height : ExpressionTree ι → Nat
  | empty | leaf _ => 1
  | choice a b | sequence a b => max a.height b.height + 1
  | optional a | zeroOrMore a | oneOrMore a => a.height + 1

/-- The tree with other labels. -/
def map (f : ι → κ) : ExpressionTree ι → ExpressionTree κ
  | empty => empty
  | leaf x => leaf (f x)
  | choice a b => choice (a.map f) (b.map f)
  | sequence a b => sequence (a.map f) (b.map f)
  | optional a => optional (a.map f)
  | zeroOrMore a => zeroOrMore (a.map f)
  | oneOrMore a => oneOrMore (a.map f)

/-- The language over letters that `m` relates to labels. -/
def language (m : ι → α → Prop) : ExpressionTree ι → Language α
  | empty => 1
  | leaf x => letters (m x)
  | choice a b => a.language m + b.language m
  | sequence a b => a.language m * b.language m
  | optional a => 1 + a.language m
  | zeroOrMore a => (a.language m)∗
  | oneOrMore a => a.language m * (a.language m)∗

@[simp]
theorem leaves_map (f : ι → κ) (e : ExpressionTree ι) : (e.map f).leaves = e.leaves.map f := by
  induction e <;> simp_all [map, leaves]

@[simp]
theorem map_map {μ : Type} (g : κ → μ) (f : ι → κ) (e : ExpressionTree ι) :
    (e.map f).map g = e.map (g ∘ f) := by
  induction e <;> simp_all [map]

theorem language_map (f : ι → κ) (m : κ → α → Prop) (e : ExpressionTree ι) :
    (e.map f).language m = e.language (fun x => m (f x)) := by
  induction e <;> simp_all [map, language]

end ExpressionTree

namespace ExpressionTable

/-- Node `i` of the table stands for a tree that takes the nodes `ns`, in the order of a walk that
visits a node before its parts. -/
inductive Holds (t : ExpressionTable) : Nat → ExpressionTree Position → List Nat → Prop
  | empty {i} (h : t.get i = .ok .empty) : Holds t i .empty [i]
  | leaf {i l p} (h : t.get i = .ok (.leaf l p)) : Holds t i (.leaf ⟨l, p⟩) [i]
  | choice {i a b ea eb na nb} (h : t.get i = .ok (.choice a b)) (ha : Holds t a ea na)
      (hb : Holds t b eb nb) : Holds t i (.choice ea eb) (i :: (na ++ nb))
  | sequence {i a b ea eb na nb} (h : t.get i = .ok (.sequence a b)) (ha : Holds t a ea na)
      (hb : Holds t b eb nb) : Holds t i (.sequence ea eb) (i :: (na ++ nb))
  | optional {i a ea na} (h : t.get i = .ok (.optional a)) (ha : Holds t a ea na) :
      Holds t i (.optional ea) (i :: na)
  | zeroOrMore {i a ea na} (h : t.get i = .ok (.zeroOrMore a)) (ha : Holds t a ea na) :
      Holds t i (.zeroOrMore ea) (i :: na)
  | oneOrMore {i a ea na} (h : t.get i = .ok (.oneOrMore a)) (ha : Holds t a ea na) :
      Holds t i (.oneOrMore ea) (i :: na)

/-- The table `u` has the nodes of `t` and perhaps more. -/
structure Grows (t u : ExpressionTable) : Prop where
  size_le : t.size ≤ u.size
  get {i : Nat} {e : Expression} : t.get i = .ok e → u.get i = .ok e

variable {t u : ExpressionTable} {i : Nat} {e : ExpressionTree Position} {ns : List Nat}

theorem get_eq_ok {e : Expression} : t.get i = .ok e ↔ t.nodes[i]? = some e := by
  unfold get
  split <;> simp_all

theorem lt_size_of_get {e : Expression} (h : t.get i = .ok e) : i < t.size := by
  rw [get_eq_ok] at h
  exact (Array.getElem?_eq_some_iff.mp h).1

theorem Grows.refl (t : ExpressionTable) : t.Grows t := ⟨le_rfl, id⟩

theorem Grows.trans {v : ExpressionTable} (h : t.Grows u) (h' : u.Grows v) : t.Grows v :=
  ⟨h.size_le.trans h'.size_le, fun hi => h'.get (h.get hi)⟩

@[simp]
theorem size_push (t : ExpressionTable) (e : Expression) : (t.push e).size = t.size + 1 := by
  simp [size, push]

theorem get_push_size (t : ExpressionTable) (e : Expression) : (t.push e).get t.size = .ok e := by
  rw [get_eq_ok]
  simp [size, push]

theorem grows_push (t : ExpressionTable) (e : Expression) : t.Grows (t.push e) where
  size_le := by simp
  get {i e'} h := by
    have hi := lt_size_of_get h
    rw [get_eq_ok] at h ⊢
    rw [push, Array.getElem?_push_lt hi, ← h, Array.getElem?_eq_getElem hi]

theorem Holds.root_mem (h : t.Holds i e ns) : i ∈ ns := by
  cases h <;> simp

theorem Holds.grows (h : t.Holds i e ns) (hu : t.Grows u) : u.Holds i e ns := by
  induction h with
  | empty h => exact .empty (hu.get h)
  | leaf h => exact .leaf (hu.get h)
  | choice h _ _ iha ihb => exact .choice (hu.get h) iha ihb
  | sequence h _ _ iha ihb => exact .sequence (hu.get h) iha ihb
  | optional h _ ih => exact .optional (hu.get h) ih
  | zeroOrMore h _ ih => exact .zeroOrMore (hu.get h) ih
  | oneOrMore h _ ih => exact .oneOrMore (hu.get h) ih

theorem Holds.lt_size (h : t.Holds i e ns) : ∀ n ∈ ns, n < t.size := by
  induction h with
  | empty h | leaf h => simpa using lt_size_of_get h
  | choice h _ _ iha ihb | sequence h _ _ iha ihb =>
    intro n hn
    rcases List.mem_cons.mp hn with rfl | hn
    · exact lt_size_of_get h
    · exact (List.mem_append.mp hn).elim (iha n) (ihb n)
  | optional h _ ih | zeroOrMore h _ ih | oneOrMore h _ ih =>
    intro n hn
    rcases List.mem_cons.mp hn with rfl | hn
    · exact lt_size_of_get h
    · exact ih n hn

theorem Holds.height_le_length (h : t.Holds i e ns) : e.height ≤ ns.length := by
  induction h <;> simp_all [ExpressionTree.height] <;> omega

/-- Without sharing there are no more levels than nodes. -/
theorem Holds.height_le_size (h : t.Holds i e ns) (hn : ns.Nodup) : e.height ≤ t.size := by
  have hs : ns.Subperm (List.range t.size) :=
    hn.subperm fun n hn => List.mem_range.mpr (h.lt_size n hn)
  exact h.height_le_length.trans (by simpa using hs.length_le)

end ExpressionTable

end MarkupGrammar
