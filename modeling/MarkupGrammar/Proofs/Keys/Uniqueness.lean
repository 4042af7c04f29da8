import MarkupGrammar.Proofs.Grammar.Compiled
import MarkupGrammar.Proofs.Keys.Element
import Mathlib.Data.List.Dedup

/-! # Keys and uniqueness

While a document is read, each activation of an identity constraint reports on its own: for each
complete tuple that has been there before, and, for a key, for each incomplete one
(`run_violations_of_activations`). -/

namespace MarkupGrammar

variable {types : TypeTable} {c : Constraint} {tuples : List FieldTuple}

/-! ## Documents -/

namespace Keys

variable {draft : GrammarDraft} {limits : Limits} {g : Grammar}

theorem selectElements_of_compile (h : draft.compile limits = .ok g) : SelectElements g :=
  fun c hc => (GrammarDraft.constraints_of_compile h c hc).1

theorem at_start : ({} : Keys).At [] fun _ _ => False := by
  refine ⟨rfl, ?_, ?_, ?_, rfl, ?_, fun d hd hdk x => absurd hd (Nat.not_lt.mpr hdk)⟩
  · exact fun a ha => absurd ha List.not_mem_nil
  · exact fun s hs => absurd hs List.not_mem_nil
  · exact fun r hr => absurd hr List.not_mem_nil
  · exact fun a ha => absurd ha List.not_mem_nil

/-- What reading a document does. -/
theorem reads_document (h : draft.compile limits = .ok g) (d : Tree DeclaredTag) :
    Reads g [] (fun _ _ => False) (.element d.label d.inner .nil) {}
      (({} : Keys).run g d.events).1 (({} : Keys).run g d.events).2 :=
  reads_run (selectElements_of_compile h) _ at_start

end Keys

/-! ## Verdicts on many elements -/

namespace Constraint

variable {t : Tree DeclaredTag} {w : FieldTuple} {v : Violation}

theorem noted_of_none (h : c.tuple? types t = none) : c.noted types tuples t = tuples := by
  rw [noted, fresh?, h]
  rfl

theorem noted_of_mem (h : c.tuple? types t = some w) (hw : w ∈ tuples) :
    c.noted types tuples t = tuples := by
  have hfresh : c.fresh? types tuples t = none := by
    rw [fresh?, h, Option.filter_some_neg]
    simp [hw]
  rw [noted, hfresh]
  rfl

theorem noted_of_not_mem (hk : c.kind ≠ .keyref) (h : c.tuple? types t = some w) (hw : w ∉ tuples) :
    c.noted types tuples t = w :: tuples := by
  rw [noted, fresh?_eq_some.mpr ⟨h, hk, hw⟩]
  rfl

theorem verdict_of_none (h : c.tuple? types t = none) : c.verdict types tuples t =
    if c.kind = .key then [c.incompleteViolation types t] else [] := by
  rw [verdict, h]

theorem verdict_of_mem (hk : c.kind ≠ .keyref) (h : c.tuple? types t = some w) (hw : w ∈ tuples) :
    c.verdict types tuples t = [c.duplicateViolation t w] := by
  rw [verdict, h]
  exact if_pos ⟨hk, hw⟩

theorem verdict_of_not_mem (h : c.tuple? types t = some w) (hw : w ∉ tuples) :
    c.verdict types tuples t = [] := by
  rw [verdict, h]
  exact if_neg fun hand => hw hand.2

/-- A duplicate is reported of an element whose tuple has been recorded before. -/
theorem of_mem_verdict (hk : c.kind ≠ .keyref) (hv : v ∈ c.verdict types tuples t)
    (hd : v.kind = .duplicateKey) :
    ∃ w, c.tuple? types t = some w ∧ w ∈ tuples ∧ v = c.duplicateViolation t w := by
  cases h : c.tuple? types t with
  | none =>
    rw [verdict_of_none h] at hv
    split at hv
    · rw [List.mem_singleton.mp hv] at hd
      exact nomatch hd
    · exact absurd hv List.not_mem_nil
  | some w =>
    by_cases hw : w ∈ tuples
    · rw [verdict_of_mem hk h hw] at hv
      exact ⟨w, rfl, hw, List.mem_singleton.mp hv⟩
    · rw [verdict_of_not_mem h hw] at hv
      exact absurd hv List.not_mem_nil

/-- A duplicate has the tuple of an element that ended before. -/
theorem of_mem_verdicts (hk : c.kind ≠ .keyref) {ts : List (Tree DeclaredTag)}
    (hv : v ∈ c.verdicts types tuples ts) (hd : v.kind = .duplicateKey) :
    ∃ before n after w, ts = before ++ n :: after ∧ c.tuple? types n = some w ∧
      (w ∈ tuples ∨ ∃ m ∈ before, c.tuple? types m = some w) ∧ v = c.duplicateViolation n w := by
  induction ts generalizing tuples with
  | nil => exact absurd hv List.not_mem_nil
  | cons t ts ih =>
    rcases List.mem_append.mp hv with hv | hv
    · obtain ⟨w, ht, hw, rfl⟩ := of_mem_verdict hk hv hd
      exact ⟨[], t, ts, w, rfl, ht, .inl hw, rfl⟩
    · obtain ⟨before, n, after, w, rfl, hn, hw, rfl⟩ := ih hv
      refine ⟨t :: before, n, after, w, rfl, hn, ?_, rfl⟩
      rw [mem_noted, mem_recorded] at hw
      rcases hw with (hw | ⟨-, m, hm, hw⟩) | ⟨m, hm, hw⟩
      · exact .inl hw
      · rw [List.mem_singleton.mp hm] at hw
        exact .inr ⟨t, List.mem_cons_self, hw⟩
      · exact .inr ⟨m, List.mem_cons_of_mem t hm, hw⟩

/-- A key reports each element without a complete tuple, and `unique` none. -/
theorem filter_incomplete (hk : c.kind ≠ .keyref) (ts : List (Tree DeclaredTag)) :
    (c.verdicts types tuples ts).filter (·.kind = .incompleteKey) =
      if c.kind = .key then
        (ts.filter fun t => (c.tuple? types t).isNone).map (c.incompleteViolation types)
      else [] := by
  induction ts generalizing tuples with
  | nil => simp [verdicts]
  | cons t ts ih =>
    rw [verdicts, List.filter_append, ih, List.filter_cons]
    cases h : c.tuple? types t with
    | none =>
      rw [verdict_of_none h]
      split <;> rfl
    | some w =>
      have hnone : (c.verdict types tuples t).filter (·.kind = .incompleteKey) = [] := by
        by_cases hw : w ∈ tuples
        · rw [verdict_of_mem hk h hw]
          rfl
        · rw [verdict_of_not_mem h hw]
          rfl
      rw [hnone]
      rfl

/-- Each complete tuple is either recorded or a duplicate. -/
theorem length_duplicates (hk : c.kind ≠ .keyref) (ts : List (Tree DeclaredTag)) :
    ((c.verdicts types tuples ts).filter (·.kind = .duplicateKey)).length +
      (ts.foldl (c.noted types) tuples).length =
        tuples.length + (ts.filterMap (c.tuple? types)).length := by
  induction ts generalizing tuples with
  | nil => simp [verdicts]
  | cons t ts ih =>
    rw [verdicts, List.filter_append, List.length_append, List.foldl_cons, Nat.add_assoc, ih,
      List.filterMap_cons]
    cases h : c.tuple? types t with
    | none =>
      have hnone : (c.verdict types tuples t).filter (·.kind = .duplicateKey) = [] := by
        rw [verdict_of_none h]
        split <;> rfl
      rw [hnone, noted_of_none h, List.length_nil, Nat.zero_add]
    | some w =>
      by_cases hw : w ∈ tuples
      · rw [verdict_of_mem hk h hw, noted_of_mem h hw]
        change 1 + (tuples.length + _) = tuples.length + (_ + 1)
        omega
      · rw [verdict_of_not_mem h hw, noted_of_not_mem hk h hw]
        change 0 + (tuples.length + 1 + _) = tuples.length + (_ + 1)
        omega

/-- No tuple is recorded twice. -/
theorem nodup_foldl_noted (hk : c.kind ≠ .keyref) (ts : List (Tree DeclaredTag))
    (h : tuples.Nodup) : (ts.foldl (c.noted types) tuples).Nodup := by
  induction ts generalizing tuples with
  | nil => exact h
  | cons t ts ih =>
    refine ih ?_
    cases ht : c.tuple? types t with
    | none => rwa [noted_of_none ht]
    | some w =>
      by_cases hw : w ∈ tuples
      · rwa [noted_of_mem ht hw]
      · rw [noted_of_not_mem hk ht hw]
        exact List.nodup_cons.mpr ⟨hw, h⟩

/-- There are as many duplicates as complete tuples without the distinct ones. -/
theorem length_duplicates_eq (hk : c.kind ≠ .keyref) (ts : List (Tree DeclaredTag)) :
    ((c.verdicts types [] ts).filter (·.kind = .duplicateKey)).length =
      (ts.filterMap (c.tuple? types)).length - (ts.filterMap (c.tuple? types)).dedup.length := by
  have hcount : ((c.verdicts types [] ts).filter (·.kind = .duplicateKey)).length +
      (ts.foldl (c.noted types) []).length =
        List.length (α := FieldTuple) [] + (ts.filterMap (c.tuple? types)).length :=
    length_duplicates hk ts
  have hperm : (ts.foldl (c.noted types) []).Perm (ts.filterMap (c.tuple? types)).dedup := by
    refine (List.perm_ext_iff_of_nodup (nodup_foldl_noted hk ts List.nodup_nil)
      (List.nodup_dedup _)).mpr fun w => ?_
    rw [mem_foldl_noted, mem_recorded, List.mem_dedup, List.mem_filterMap]
    simp [hk]
  rw [← hperm.length_eq]
  rw [List.length_nil] at hcount
  omega

end Constraint

/-! ## Reports -/

namespace Keys

/-- **Keys and uniqueness are checked for each activation on its own.** Apart from fields with
several values, what is reported while a document is read is what its activations report, each from
the elements that it has selected and their tuples. An activation of a key or a `unique` constraint
reports as many duplicates as it has complete tuples more than distinct ones, each for an element
with the tuple of an element that ended before; a key also reports each element without a complete
tuple. -/
theorem run_violations_of_activations {draft : GrammarDraft} {limits : Limits} {g : Grammar}
    (h : draft.compile limits = .ok g) (d : Tree DeclaredTag) :
    ((({} : Keys).run g d.events).2.filter fun v => v.kind ≠ .fieldMultipleMatch).Perm
        ((d.activations g).flatMap (·.verdicts g.types)) ∧
      ∀ a ∈ d.activations g, a.of.constraint.kind ≠ .keyref →
        let complete := a.selected.filterMap (a.tuple? g.types)
        ((a.verdicts g.types).filter (·.kind = .duplicateKey)).length =
            complete.length - complete.dedup.length ∧
          (∀ v ∈ a.verdicts g.types, v.kind = .duplicateKey →
            ∃ before n after w, a.selected = before ++ n :: after ∧
              a.tuple? g.types n = some w ∧ (∃ m ∈ before, a.tuple? g.types m = some w) ∧
              v = a.of.constraint.duplicateViolation n w) ∧
          (a.verdicts g.types).filter (·.kind = .incompleteKey) =
            if a.of.constraint.kind = .key then
              (a.selected.filter fun n => (a.tuple? g.types n).isNone).map
                (a.of.constraint.incompleteViolation g.types)
            else [] := by
  have hreads := reads_document h d
  refine ⟨?_, fun a ha hk => ⟨?_, fun v hv hd => ?_, ?_⟩⟩
  · have hviolations := hreads.violations
    rw [Forest.activations_element] at hviolations
    exact hviolations
  · exact Constraint.length_duplicates_eq hk a.selected
  · obtain ⟨before, n, after, w, hselected, hn, hw, rfl⟩ := Constraint.of_mem_verdicts hk hv hd
    rcases hw with hw | hw
    · exact absurd hw List.not_mem_nil
    · exact ⟨before, n, after, w, hselected, hn, hw, rfl⟩
  · exact Constraint.filter_incomplete hk a.selected

/-- A register of entries, each with a number of its own. -/
def register : GrammarDraft where
  description := .schema none
  elements := [
    { name := .unqualified "register"
      content := .children (.leaf (.element (.unqualified "entry")) .zeroOrMore)
      constraints := [⟨.unqualified "numbers", .key, "entry", ["@number"], none, {}⟩] },
    { name := .unqualified "entry", content := .empty }]

/-- A register where a number occurs twice and another is left out. -/
def registered : Tree DeclaredTag :=
  let entry (attributes : List TypedAttribute) : DeclaredTag :=
    ⟨some 1, { name := .unqualified "entry", attributes }, "/register/entry"⟩
  let number : TypedAttribute := ⟨.unqualified "number", "1", none⟩
  ⟨⟨some 0, { name := .unqualified "register" }, "/register"⟩,
    .element (entry [number]) .nil (.element (entry [number]) .nil (.element (entry []) .nil .nil))⟩

theorem run_violations_registered :
    ∃ g, register.compile {} = .ok g ∧
      ((({} : Keys).run g registered.events).2.filter fun v => v.kind ≠ .fieldMultipleMatch).Perm
        ((registered.activations g).flatMap (·.verdicts g.types)) := by
  have hok : (register.compile {}).isOk := by decide +kernel
  obtain ⟨g, h⟩ := GrammarDraft.exists_compile_eq_ok hok
  exact ⟨g, h, (run_violations_of_activations h registered).1⟩

example : ((register.compile {}).toOption.map fun g =>
    (({} : Keys).run g registered.events).2.map (·.kind)) =
      some [.duplicateKey, .incompleteKey] := by
  decide +kernel

end Keys

end MarkupGrammar
