import MarkupGrammar.Proofs.Keys.Uniqueness

/-! # References

References are only looked up when the activating element ends, and reported at the end of the
document: those whose tuple no activation of the constraint referred to, by the activating element
or an element in it, has recorded (`finish_violations_of_activations`). -/

namespace MarkupGrammar

variable {draft : GrammarDraft} {limits : Limits} {g : Grammar}

/-! ## Activations -/

/-- An activation is of a constraint of the grammar. -/
theorem Tree.constraint_of_mem_activations {t : Tree DeclaredTag} {a : Activated}
    (h : a ∈ t.activations g) : g.constraints[a.of.number]? = some a.of.constraint := by
  obtain ⟨u, -, ha⟩ := List.mem_flatMap.mp h
  obtain ⟨c, hc, rfl⟩ := List.mem_map.mp ha
  unfold DeclaredTag.constraints at hc
  split at hc
  · exact absurd hc List.not_mem_nil
  · obtain ⟨number, -, hc⟩ := List.mem_filterMap.mp hc
    obtain ⟨constraint, hconstraint, rfl⟩ := Option.map_eq_some_iff.mp hc
    exact hconstraint

namespace Activated

/-- What the activations of a constraint that is no keyref record is what they select. -/
theorem isRecordedIn_iff {t : Tree DeclaredTag} {refer : Nat} {target : Constraint}
    {v : FieldTuple} (htarget : g.constraints[refer]? = some target) (hk : target.kind ≠ .keyref) :
    isRecordedIn g t refer v ↔ ∃ b ∈ t.activations g, b.of.number = refer ∧
      ∃ m ∈ b.selected, b.tuple? g.types m = some v := by
  refine exists_congr fun b => and_congr_right fun hb => and_congr_right fun hn => ?_
  have hconstraint := Tree.constraint_of_mem_activations hb
  rw [hn, htarget] at hconstraint
  have hkb : b.of.constraint.kind ≠ .keyref := by
    rw [← Option.some.inj hconstraint]
    exact hk
  rw [recorded, Constraint.mem_recorded, and_iff_right hkb]
  rfl

/-- Only keyrefs report at the end of the document. -/
theorem unresolved_of_ne {a : Activated} (h : a.of.constraint.kind ≠ .keyref) :
    a.unresolved g = [] := by
  unfold unresolved
  split
  · rename_i hk _
    exact absurd hk h
  · rfl

/-- An element is reported if its tuple is complete and has not been recorded. -/
theorem unresolved_eq {a : Activated} {refer : Nat} {target : Constraint}
    (hk : a.of.constraint.kind = .keyref) (hr : a.of.constraint.refer? = some refer)
    (htarget : g.constraints[refer]? = some target) (hkt : target.kind ≠ .keyref) :
    a.unresolved g = a.selected.filterMap fun n => (a.tuple? g.types n).bind fun v =>
      if ∃ b ∈ a.element.activations g, b.of.number = refer ∧
          ∃ m ∈ b.selected, b.tuple? g.types m = some v then none
      else some (a.danglingViolation g refer n v) := by
  unfold unresolved
  rw [hk, hr]
  refine congrArg (List.filterMap · a.selected) (funext fun n => ?_)
  cases a.tuple? g.types n with
  | none => rfl
  | some v =>
    have hrecorded := isRecordedIn_iff (t := a.element) (v := v) htarget hkt
    rw [Option.bind_some]
    by_cases hv : isRecordedIn g a.element refer v
    · rw [if_pos (hrecorded.mp hv), Option.filter_some_neg (by simpa using hv)]
      rfl
    · rw [if_neg (mt hrecorded.mpr hv), Option.filter_some_pos (by simpa using hv)]
      rfl

end Activated

/-! ## Reports -/

namespace Keys

theorem kind_of_mem_verdicts {types : TypeTable} {c : Constraint} {tuples : List FieldTuple}
    {ts : List (Tree DeclaredTag)} {v : Violation} (hv : v ∈ c.verdicts types tuples ts) :
    v.kind ≠ .danglingKeyref := by
  induction ts generalizing tuples with
  | nil => exact absurd hv List.not_mem_nil
  | cons t ts ih =>
    rcases List.mem_append.mp hv with hv | hv
    · rcases Constraint.kind_of_mem_verdict hv with hk | hk
      · rw [hk]
        exact nofun
      · rw [hk]
        exact nofun
    · exact ih hv

/-- **References are resolved exactly, and reported at the end of the document only.** At the end
each activation of a keyref reports the elements that it has selected whose tuple is complete, and
occurs in no activation of the constraint referred to, by the activating element or an element in
it; no other constraint reports anything there. While the document is read, no reference is
reported. -/
theorem finish_violations_of_activations (h : draft.compile limits = .ok g) (d : Tree DeclaredTag) :
    (∀ v ∈ (({} : Keys).run g d.events).2, v.kind ≠ .danglingKeyref) ∧
      ((({} : Keys).run g d.events).1.finish g).2.Perm
        ((d.activations g).flatMap (·.unresolved g)) ∧
      ∀ a ∈ d.activations g,
        (a.of.constraint.kind ≠ .keyref → a.unresolved g = []) ∧
        (a.of.constraint.kind = .keyref → ∃ refer target,
          a.of.constraint.refer? = some refer ∧ g.constraints[refer]? = some target ∧
          target.kind ≠ .keyref ∧
          a.unresolved g = a.selected.filterMap fun n => (a.tuple? g.types n).bind fun v =>
            if ∃ b ∈ a.element.activations g, b.of.number = refer ∧
                ∃ m ∈ b.selected, b.tuple? g.types m = some v then none
            else some (a.danglingViolation g refer n v)) := by
  have hreads := reads_document h d
  have hactivations := Forest.activations_element g d.label d.inner
  refine ⟨fun v hv hk => ?_, ?_, fun a ha => ⟨Activated.unresolved_of_ne, fun hk => ?_⟩⟩
  · have hmem : v ∈ reported (({} : Keys).run g d.events).2 := by
      refine List.mem_filter.mpr ⟨hv, ?_⟩
      rw [hk]
      rfl
    have hverdict := hreads.violations.mem_iff.mp hmem
    obtain ⟨a, -, hv⟩ := List.mem_flatMap.mp hverdict
    exact kind_of_mem_verdicts hv hk
  · have hwaiting : (({} : Keys).run g d.events).1.waiting = [] := hreads.waiting.eq_nil
    have hdangling := hreads.dangling
    rw [hactivations] at hdangling
    rw [finish, hwaiting, List.append_nil]
    exact hdangling
  · have hconstraint := Array.mem_of_getElem? (Tree.constraint_of_mem_activations ha)
    obtain ⟨-, hkeyref, hrefer⟩ := GrammarDraft.constraints_of_compile h _ hconstraint
    obtain ⟨refer, hr⟩ := Option.isSome_iff_exists.mp (hkeyref.mp hk)
    obtain ⟨target, htarget, hkt⟩ := hrefer refer hr
    exact ⟨refer, target, hr, htarget, hkt, Activated.unresolved_eq hk hr htarget hkt⟩

/-- A register of entries with numbers, and of links to them. -/
def linkedRegister : GrammarDraft where
  description := .schema none
  elements := [
    { name := .unqualified "register"
      content := .children (.group .choice
        [.leaf (.element (.unqualified "entry")) .once,
          .leaf (.element (.unqualified "link")) .once]
        .zeroOrMore)
      constraints := [
        ⟨.unqualified "links", .keyref, "link", ["@to"], some (.unqualified "numbers"), {}⟩,
        ⟨.unqualified "numbers", .key, "entry", ["@number"], none, {}⟩] },
    { name := .unqualified "entry", content := .empty },
    { name := .unqualified "link", content := .empty }]

/-- A register with a link to an entry behind it and a link to no entry. -/
def linked : Tree DeclaredTag :=
  let tag (element : Nat) (name label value : String) : DeclaredTag :=
    ⟨some element, { name := .unqualified name, attributes := [⟨.unqualified label, value, none⟩] },
      "/register/" ++ name⟩
  ⟨⟨some 0, { name := .unqualified "register" }, "/register"⟩,
    .element (tag 2 "link" "to" "1") .nil (.element (tag 2 "link" "to" "2") .nil
      (.element (tag 1 "entry" "number" "1") .nil .nil))⟩

theorem finish_violations_linked :
    ∃ g, linkedRegister.compile {} = .ok g ∧
      (∀ v ∈ (({} : Keys).run g linked.events).2, v.kind ≠ .danglingKeyref) ∧
      ((({} : Keys).run g linked.events).1.finish g).2.Perm
        ((linked.activations g).flatMap (·.unresolved g)) := by
  have hok : (linkedRegister.compile {}).isOk := by decide +kernel
  obtain ⟨g, h⟩ := GrammarDraft.exists_compile_eq_ok hok
  obtain ⟨hnone, hperm, -⟩ := finish_violations_of_activations h linked
  exact ⟨g, h, hnone, hperm⟩

example : ((linkedRegister.compile {}).toOption.map fun g =>
    ((({} : Keys).run g linked.events).1.finish g).2.map fun v => (v.kind, v.value?)) =
      some [(.danglingKeyref, some "2")] := by
  decide +kernel

end Keys

end MarkupGrammar
