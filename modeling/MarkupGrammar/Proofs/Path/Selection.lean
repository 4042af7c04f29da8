import MarkupGrammar.Path.Matcher
import MarkupGrammar.Proofs.Document.Forest
import Mathlib.Data.List.Forall2

/-! # What location paths select

The meaning of an expression on a document tree, without positions and stacks. A path is followed
from a context element down a chain of elements, each the parent of the next. All its steps have to
be made, one at each element, down to the last one; only a path that may begin at any descendant
leaves out elements, and only the first ones (`LocationPath.Reaches`). -/

namespace MarkupGrammar

/-! ## Chains of elements -/

namespace LocationPath

variable {p : LocationPath} {below : List Name} {test : NameTest} {n : Name} {k : Nat}

/-- The path leads from a context to the last of the elements with the names `below`: a child of the
context, a child of that one and so on. Without any names it leads to the context itself. -/
def Reaches (p : LocationPath) (below : List Name) : Prop :=
  (p.descendant ∨ below.length = p.steps.length) ∧
    List.Forall₂ (fun test n => test.accepts n) p.steps
      (below.drop (below.length - p.steps.length))

instance (p : LocationPath) (below : List Name) : Decidable (p.Reaches below) :=
  inferInstanceAs (Decidable (_ ∧ _))

/-- A path leads to a certain depth, and each of the last names passes its step. -/
theorem reaches_iff_getElem? : p.Reaches below ↔
    (if p.descendant then p.steps.length ≤ below.length else below.length = p.steps.length) ∧
      ∀ i test n, p.steps[i]? = some test →
        below[below.length - p.steps.length + i]? = some n → test.accepts n := by
  have hlen : (below.drop (below.length - p.steps.length)).length =
      min p.steps.length below.length := by
    rw [List.length_drop]
    omega
  have hdepth : (p.descendant ∨ below.length = p.steps.length) ∧
      p.steps.length ≤ below.length ↔
      if p.descendant then p.steps.length ≤ below.length
        else below.length = p.steps.length := by
    cases p.descendant <;> simp
    omega
  rw [Reaches, List.forall₂_iff_get, ← hdepth]
  constructor
  · rintro ⟨hd, hle, hs⟩
    refine ⟨⟨hd, by omega⟩, fun i test n htest hn => ?_⟩
    obtain ⟨hi, rfl⟩ := List.getElem?_eq_some_iff.mp htest
    rw [← List.getElem?_drop] at hn
    obtain ⟨hi', rfl⟩ := List.getElem?_eq_some_iff.mp hn
    exact hs i hi hi'
  · rintro ⟨⟨hd, hle⟩, hs⟩
    refine ⟨hd, by omega, fun i hi hi' => ?_⟩
    refine hs i _ _ (List.getElem?_eq_getElem hi) ?_
    rw [← List.getElem?_drop]
    exact List.getElem?_eq_getElem hi'

/-- The elements where steps are made follow those that are left out. -/
theorem reaches_iff : p.Reaches below ↔ ∃ skipped last, below = skipped ++ last ∧
    (p.descendant ∨ skipped = []) ∧ List.Forall₂ (fun test n => test.accepts n) p.steps last := by
  constructor
  · rintro ⟨hd, hs⟩
    refine ⟨_, _, (List.take_append_drop (below.length - p.steps.length) below).symm, ?_, hs⟩
    refine hd.imp_right fun hlen => ?_
    rw [hlen, Nat.sub_self, List.take_zero]
  · rintro ⟨skipped, last, rfl, hd, hs⟩
    have hlen : (skipped ++ last).length - p.steps.length = skipped.length := by
      rw [List.length_append, hs.length_eq, Nat.add_sub_cancel]
    refine ⟨hd.imp_right ?_, ?_⟩
    · rintro rfl
      exact hs.length_eq.symm
    · rwa [hlen, List.drop_left]

/-- A path without steps leads to the context, or to all elements. -/
theorem reaches_of_no_steps (hp : p.steps = []) :
    p.Reaches below ↔ p.descendant ∨ below = [] := by
  rw [reaches_iff, hp]
  constructor
  · rintro ⟨skipped, last, rfl, hd, hs⟩
    obtain rfl := List.forall₂_nil_left_iff.mp hs
    simpa using hd
  · intro hd
    exact ⟨below, [], (List.append_nil _).symm, hd, .nil⟩

/-- The path that only makes the first `k` steps. -/
def upTo (p : LocationPath) (k : Nat) : LocationPath := { p with steps := p.steps.take k }

theorem upTo_length (p : LocationPath) : p.upTo p.steps.length = p := by
  rw [upTo, List.take_length]

theorem upTo_zero_steps (p : LocationPath) : (p.upTo 0).steps = [] := rfl

theorem reaches_upTo_zero_nil : (p.upTo 0).Reaches [] :=
  (reaches_of_no_steps p.upTo_zero_steps).mpr (.inr rfl)

theorem reaches_upTo_zero_concat : (p.upTo 0).Reaches (below ++ [n]) ↔ p.descendant := by
  rw [reaches_of_no_steps p.upTo_zero_steps]
  have hne : below ++ [n] ≠ [] := List.concat_ne_nil _ _
  exact ⟨fun h => h.resolve_right hne, .inl⟩

/-- At the context no step has been made. -/
theorem not_reaches_upTo_succ_nil (hk : k < p.steps.length) : ¬ (p.upTo (k + 1)).Reaches [] := by
  rintro ⟨-, hs⟩
  have hlen := hs.length_eq
  simp only [upTo, List.length_take, List.drop_nil, List.length_nil] at hlen
  omega

/-- The last step is made at the last element. -/
theorem reaches_upTo_succ_concat (hk : p.steps[k]? = some test) :
    (p.upTo (k + 1)).Reaches (below ++ [n]) ↔ (p.upTo k).Reaches below ∧ test.accepts n := by
  have hsteps : (p.upTo (k + 1)).steps = (p.upTo k).steps ++ [test] := by
    rw [upTo, upTo, List.take_add_one, hk, Option.toList_some]
  rw [reaches_iff, reaches_iff, hsteps]
  constructor
  · rintro ⟨skipped, last, hbelow, hd, hs⟩
    -- both lists are cut before their last entry
    rcases List.eq_nil_or_concat last with rfl | ⟨init, m, rfl⟩
    · have hlen := hs.length_eq
      simp at hlen
    · rw [List.concat_eq_append] at hs hbelow
      rw [← List.append_assoc] at hbelow
      obtain ⟨rfl, hnm⟩ := List.append_inj' hbelow rfl
      obtain rfl : n = m := by simpa using hnm
      rw [← List.forall₂_reverse_iff, List.reverse_append, List.reverse_append] at hs
      obtain ⟨hn, hs⟩ := List.forall₂_cons.mp hs
      exact ⟨⟨skipped, init, rfl, hd, List.forall₂_reverse_iff.mp hs⟩, hn⟩
  · rintro ⟨⟨skipped, last, rfl, hd, hs⟩, hn⟩
    exact ⟨skipped, last ++ [n], List.append_assoc _ _ _, hd, List.rel_append hs (.cons hn .nil)⟩

end LocationPath

/-! ## Selected elements and attributes -/

namespace PathExpression

variable (e : PathExpression) (below : List Name)

/-- A path without attribute test leads to the last element. -/
def SelectsElement : Prop := ∃ p ∈ e.paths, p.attribute? = none ∧ p.Reaches below

/-- A path leads to the last element, and the attribute passes its test. -/
def SelectsAttribute (a : TypedAttribute) : Prop :=
  ∃ p ∈ e.paths, p.Reaches below ∧ p.attribute?.any (·.accepts a.name)

instance : Decidable (e.SelectsElement below) :=
  inferInstanceAs (Decidable (∃ p ∈ e.paths, _))

instance (a : TypedAttribute) : Decidable (e.SelectsAttribute below a) :=
  inferInstanceAs (Decidable (∃ p ∈ e.paths, _))

/-- The attribute that is delivered: for the first path that selects any, the first of them. -/
def captured (as : List TypedAttribute) : Option Selected :=
  e.paths.findSome? fun p =>
    if p.Reaches below then
      (p.attribute?.bind fun test => as.find? fun a => test.accepts a.name).map fun a =>
        ⟨true, a.name, a.value, a.type?⟩
    else none

/-- The element that is delivered, if it is selected, with its text. -/
def delivered (tag : TagEvent) (text : String) : Option Selected :=
  if e.SelectsElement below then some ⟨false, tag.name, text, tag.type?⟩ else none

end PathExpression

/-! ## Answers about a tree -/

/-- What a matcher tells about an event. -/
inductive Matcher.Answer where
  | start (s : Matcher.Start)
  | piece
  | stop (selected : Option Selected)
  deriving DecidableEq, Repr, Inhabited

/-- The answer to the start tag of the last element of a chain. -/
def PathExpression.startAnswer (e : PathExpression) (below : List Name) (tag : TagEvent) :
    Matcher.Start :=
  ⟨e.SelectsElement below ∨ ∃ a ∈ tag.attributes, e.SelectsAttribute below a,
    e.captured below tag.attributes⟩

/-- The answers about the content of an element that the names `below` lead to. -/
def Forest.answers (e : PathExpression) (collects : Bool) (below : List Name) :
    Forest TagEvent → List Matcher.Answer
  | nil => []
  | piece _ rest => .piece :: rest.answers e collects below
  | element tag inner rest =>
    let here := below ++ [tag.name]
    .start (e.startAnswer here tag) :: (inner.answers e collects here ++
      .stop (e.delivered here tag (if collects then inner.text else "")) ::
        rest.answers e collects below)

/-- The answers about a tree whose root is the context. -/
def Tree.answers (e : PathExpression) (collects : Bool) (t : Tree TagEvent) :
    List Matcher.Answer :=
  .start (e.startAnswer [] t.label) :: (t.inner.answers e collects [] ++
    [.stop (e.delivered [] t.label (if collects then t.inner.text else ""))])

end MarkupGrammar
