import MarkupGrammar.Document.AttributeCheck
import MarkupGrammar.Proofs.Grammar.Compiled

/-! # Types and attributes of compiled grammars

What compilation guarantees of simple types and attributes. All types are derived from built-in ones
in the end, so a type has one role for identifiers at most (`TypeTable.Rooted.idRole_eq`). The
attributes of an element have different names, and a value that stands in for an absent attribute is
a literal of its type (`attributes_of_compile`). -/

namespace MarkupGrammar

/-! ## Types -/

namespace TypeTable

variable {t t' : TypeTable} {n : Name}

/-- Types are derived from built-in types. -/
def Rooted (t : TypeTable) : Prop := ∀ n b, t.root? n = some b → b ∈ Builtin.all

theorem mem_of_lookup {ds : List (Name × SimpleType)} {type : SimpleType}
    (h : ds.lookup n = some type) : (n, type) ∈ ds := by
  obtain ⟨before, after, rfl, -⟩ := List.lookup_eq_some_iff.mp h
  simp

theorem rooted_of_derived (h : ∀ d ∈ t.derived, ∀ b, d.2.root? = some b → b ∈ Builtin.all) :
    t.Rooted := by
  intro n b hb
  obtain ⟨type, htype, hb⟩ := Option.bind_eq_some_iff.mp hb
  unfold find? at htype
  split at htype
  · rename_i found hfound
    obtain rfl := Option.some.inj htype
    exact h _ (mem_of_lookup hfound) b hb
  · obtain ⟨b', hb', rfl⟩ := Option.map_eq_some_iff.mp htype
    obtain rfl := Option.some.inj hb
    unfold Builtin.ofName? at hb'
    split at hb'
    · exact List.mem_of_find?_eq_some hb'
    · exact nomatch hb'

theorem derived_declareAll {engine : PatternEngine} (ds : List TypeDraft)
    (h : ∀ d ∈ t.derived, ∀ b, d.2.root? = some b → b ∈ Builtin.all) :
    ∀ d ∈ (t.declareAll engine ds).1.derived, ∀ b, d.2.root? = some b → b ∈ Builtin.all := by
  induction ds generalizing t with
  | nil => exact h
  | cons d ds ih =>
    unfold declareAll
    cases hd : t.declare engine d with
    | error cause => exact ih h
    | ok t' =>
      refine ih (t := t') ?_
      unfold declare at hd
      split at hd
      · exact nomatch hd
      · split at hd
        · exact nomatch hd
        · rename_i base hbase
          obtain ⟨definition, -, hd⟩ := of_bind_eq_ok hd
          obtain rfl := Except.ok.inj hd
          intro d' hd' b hb
          rcases List.mem_append.mp hd' with hd' | hd'
          · exact h d' hd' b hb
          · rw [List.mem_singleton.mp hd'] at hb
            have hroot : t.root? d.base = some b := Option.bind_eq_some_iff.mpr ⟨base, hbase, hb⟩
            exact rooted_of_derived h _ _ hroot

theorem rooted_declareAll (engine : PatternEngine) (ds : List TypeDraft) :
    (({} : TypeTable).declareAll engine ds).1.Rooted :=
  rooted_of_derived (derived_declareAll ds fun _ hd => absurd hd List.not_mem_nil)

/-- No built-in type of identifiers is one of references. -/
theorem not_references_of_identifiers : ∀ b ∈ Builtin.all,
    b.derivesFrom "ID" → b.derivesFrom "IDREF" = false ∧ b.derivesFrom "IDREFS" = false := by
  decide

/-- The type is derived from a built-in type. -/
def derives (t : TypeTable) (n : Name) (ancestor : String) : Bool :=
  (t.root? n).any (·.derivesFrom ancestor)

/-- **The role of a type**, by what it is derived from. -/
theorem Rooted.idRole_eq (h : t.Rooted) (n : Name) :
    (t.idRole n = .identifier ↔ t.derives n "ID") ∧
    (t.idRole n = .reference ↔ t.derives n "IDREF") ∧
    (t.idRole n = .references ↔ ¬ t.derives n "IDREF" ∧ t.derives n "IDREFS") := by
  unfold idRole derives
  cases hb : t.root? n with
  | none => simp
  | some b =>
    have hno := not_references_of_identifiers b (h n b hb)
    dsimp only [Option.any_some]
    by_cases hid : b.derivesFrom "ID"
    · obtain ⟨hone, hmany⟩ := hno hid
      simp [hid, hone, hmany]
    · by_cases hone : b.derivesFrom "IDREF"
      · simp [hid, hone]
      · by_cases hmany : b.derivesFrom "IDREFS" <;> simp [hid, hone, hmany]

end TypeTable

/-! ## Attributes -/

/-- A literal that passes is given back after the treatment of white space. -/
theorem AttributeType.check_eq_ok {t : AttributeType} {types : TypeTable} {ctx : ValueContext}
    {literal treated : String} (h : t.check types ctx literal = .ok treated) :
    ∃ type, types.find? t.typeName = some type ∧ type.spacing.normalize literal = treated := by
  unfold check at h
  split at h
  · exact nomatch h
  · rename_i type htype
    obtain ⟨-, -, h⟩ := of_bind_eq_ok h
    dsimp only at h
    split at h
    · split at h
      · exact ⟨type, htype, Except.ok.inj h⟩
      · exact nomatch h
    · exact ⟨type, htype, Except.ok.inj h⟩

/-- The value that stands in for the attribute is a literal of its type. -/
def AttributeDeclaration.HasValidDefault (types : TypeTable) (a : AttributeDeclaration) : Prop :=
  ∀ value, a.presence.value? = some value → ∃ treated, a.type.check types {} value = .ok treated

namespace AttributeDraft

variable {types : TypeTable} {element : Nat} {seen : List Name} {a : AttributeDeclaration}

theorem of_declare {d : AttributeDraft} (h : d.declare types element = .ok a) :
    a.name = d.name ∧ a.HasValidDefault types := by
  have hdeclared : d.presence.value?.elim (.ok ⟨d.name, d.type, d.presence, element⟩)
      (fun value => do
        let _ ← (d.type.check types {} value).mapError (Fault.Cause.invalidDefault d.name)
        return (⟨d.name, d.type, d.presence, element⟩ : AttributeDeclaration)) = .ok a := by
    unfold declare at h
    dsimp only at h
    split at h
    · split at h
      · cases h
      · cases hv : d.presence.value? <;> rw [hv] at h <;> exact h
    · cases hv : d.presence.value? <;> rw [hv] at h <;> exact h
  cases hvalue : d.presence.value? with
  | none =>
    rw [hvalue] at hdeclared
    obtain rfl := Except.ok.inj hdeclared
    refine ⟨rfl, fun value hsome => ?_⟩
    exact absurd (hvalue.symm.trans hsome) (Option.some_ne_none value).symm
  | some value =>
    rw [hvalue] at hdeclared
    obtain ⟨treated, htreated, hdeclared⟩ := of_bind_eq_ok hdeclared
    obtain rfl := Except.ok.inj hdeclared
    refine ⟨rfl, fun value' hvalue' => ⟨treated, ?_⟩⟩
    obtain rfl := Option.some.inj (hvalue.symm.trans hvalue')
    dsimp only
    cases hc : d.type.check types {} value with
    | error reason => rw [hc] at htreated; cases htreated
    | ok treated' =>
      rw [hc] at htreated
      exact congrArg Except.ok (Except.ok.inj htreated)

theorem of_declareAll (seen : List Name) (ds : List AttributeDraft) :
    ((declareAll types element seen ds).1.map (·.name)).Nodup ∧
      ∀ a ∈ (declareAll types element seen ds).1, a.name ∉ seen ∧ a.HasValidDefault types := by
  induction ds generalizing seen with
  | nil => exact ⟨.nil, by simp [declareAll]⟩
  | cons d ds ih =>
    obtain ⟨hnodup, hall⟩ := ih (d.name :: seen)
    have hlater : ∀ a ∈ (declareAll types element (d.name :: seen) ds).1,
        a.name ∉ seen ∧ a.HasValidDefault types := fun a ha =>
      ⟨fun hseen => (hall a ha).1 (List.mem_cons_of_mem _ hseen), (hall a ha).2⟩
    unfold declareAll
    dsimp only
    split
    · exact ⟨hnodup, hlater⟩
    · rename_i hseen
      split
      · rename_i a ha
        obtain ⟨hname, hvalid⟩ := of_declare ha
        refine ⟨List.nodup_cons.mpr ⟨fun hin => ?_, hnodup⟩, List.forall_mem_cons.mpr ⟨?_, hlater⟩⟩
        · obtain ⟨b, hb, heq⟩ := List.mem_map.mp hin
          exact (hall b hb).1 (heq.trans hname ▸ List.mem_cons_self)
        · exact ⟨by rw [hname]; simpa using hseen, hvalid⟩
      · exact ⟨hnodup, hlater⟩

end AttributeDraft

namespace GrammarDraft

theorem filterMap_range' {α : Type} (before l after : List α) :
    (List.range' before.length l.length).filterMap (fun j => (before ++ (l ++ after))[j]?) = l := by
  induction l generalizing before with
  | nil => rfl
  | cons x l ih =>
    have hx : (before ++ (x :: l ++ after))[before.length]? = some x := by simp
    have hrest := ih (before ++ [x])
    rw [List.length_append, List.length_singleton, List.append_assoc] at hrest
    rw [List.length_cons, List.range'_succ, List.filterMap_cons, hx]
    exact congrArg (x :: ·) hrest

/-- The numbers of the entries of lists give the entries back. -/
theorem filterMap_numbersFrom {α : Type} (before : List α) {ls : List (List α)} {i : Nat}
    {numbers : List Nat} (h : (numbersFrom before.length ls)[i]? = some numbers) :
    ∃ l, ls[i]? = some l ∧ numbers.filterMap (fun j => (before ++ ls.flatten)[j]?) = l := by
  induction ls generalizing before i with
  | nil => exact absurd h (by simp [numbersFrom])
  | cons l ls ih =>
    rw [numbersFrom] at h
    cases i with
    | zero =>
      obtain rfl := Option.some.inj h
      exact ⟨l, rfl, filterMap_range' before l ls.flatten⟩
    | succ i =>
      rw [List.getElem?_cons_succ, ← List.length_append] at h
      obtain ⟨l', hl', hnumbers⟩ := ih (before ++ l) h
      rw [List.append_assoc] at hnumbers
      exact ⟨l', hl', hnumbers⟩

/-- The types and attributes of a grammar. -/
theorem declared_of_compile {draft : GrammarDraft} {limits : Limits} {g : Grammar}
    (h : draft.compile limits = .ok g) :
    g.types = (({} : TypeTable).declareAll draft.engine draft.types).1 ∧
    ∃ kept : List ElementDraft,
      g.attributes = (declareAttributes g.types 0 kept).1.flatten.toArray ∧
      ∀ d ∈ g.elements, d.attributes ∈ numbersFrom 0 (declareAttributes g.types 0 kept).1 := by
  unfold compile at h
  dsimp only at h
  obtain ⟨⟨contents, expressions, contentFaults⟩, -, h⟩ := of_bind_eq_ok h
  dsimp only at h
  split at h
  · exact nomatch h
  · obtain rfl := Except.ok.inj h
    refine ⟨rfl, _, rfl, fun d hd => ?_⟩
    obtain ⟨part, hpart, rfl⟩ := List.mem_map.mp (List.mem_toArray.mp hd)
    exact (List.of_mem_zip (List.fst_mem_of_mem_zipIdx hpart)).2

theorem mem_declareAttributes {types : TypeTable} {element : Nat} {ds : List ElementDraft}
    {l : List AttributeDeclaration} (h : l ∈ (declareAttributes types element ds).1) :
    (l.map (·.name)).Nodup ∧ ∀ a ∈ l, a.HasValidDefault types := by
  induction ds generalizing element with
  | nil => exact absurd h List.not_mem_nil
  | cons d ds ih =>
    unfold declareAttributes at h
    rcases List.mem_cons.mp h with rfl | h
    · obtain ⟨hnodup, hall⟩ := AttributeDraft.of_declareAll [] d.attributes
      exact ⟨hnodup, fun a ha => (hall a ha).2⟩
    · exact ih h

/-- **Attributes of a compiled grammar.** Those of an element have different names, and the values
that stand in for them are literals of their types. -/
theorem attributes_of_compile {draft : GrammarDraft} {limits : Limits} {g : Grammar}
    (h : draft.compile limits = .ok g) : ∀ d ∈ g.elements,
      ((g.attributesOf d).map (·.2.name)).Nodup ∧
      ∀ a ∈ (g.attributesOf d).map (·.2), a.HasValidDefault g.types := by
  obtain ⟨-, kept, hattributes, helements⟩ := declared_of_compile h
  intro d hd
  obtain ⟨i, hi⟩ := List.mem_iff_getElem?.mp (helements d hd)
  obtain ⟨l, hl, hnumbers⟩ := filterMap_numbersFrom [] hi
  have hof : (g.attributesOf d).map (·.2) = l := by
    rw [← hnumbers, Grammar.attributesOf, hattributes, List.map_filterMap]
    refine List.filterMap_congr fun j _ => ?_
    rw [List.getElem?_toArray, Option.map_map, List.nil_append]
    exact Option.map_id'
  obtain ⟨hnodup, hvalid⟩ := mem_declareAttributes (List.mem_of_getElem? hl)
  refine ⟨?_, by rwa [hof]⟩
  rw [← hof, List.map_map] at hnodup
  exact hnodup

/-- The types of a compiled grammar are derived from built-in types. -/
theorem rooted_of_compile {draft : GrammarDraft} {limits : Limits} {g : Grammar}
    (h : draft.compile limits = .ok g) : g.types.Rooted := by
  rw [(declared_of_compile h).1]
  exact TypeTable.rooted_declareAll draft.engine draft.types

end GrammarDraft

end MarkupGrammar
