import MarkupGrammar.Document.AttributeCheck
import MarkupGrammar.Proofs.Content.WellFormed

/-! # Grammars with other numbers

Declarations and constraints are referred to by their numbers, which come from their order. Two
grammars that differ in the numbers only are *renumberings* of each other (`Grammar.Renumbered`). A
renumbered content model answers with renumbered declarations (`Model.accept_renumber`), and what is
wrong with the attributes of an element does not depend on numbers
(`Grammar.Renumbered.checkAttributes_eq`). -/

namespace MarkupGrammar

variable {σ ρ : Nat → Nat} {c : Option Comparator}

/-! ## Symbols and models -/

/-- The symbol with the number of its declaration changed. -/
def Symbol.renumber (σ : Nat → Nat) (s : Symbol) : Symbol := { s with decl? := s.decl?.map σ }

/-- The answer with the number of its declaration changed. -/
def Match.renumber (σ : Nat → Nat) : Match → Match
  | matched decl? wildcard? => matched (decl?.map σ) wildcard?
  | m => m

theorem Symbol.answer_renumber (s : Symbol) : (s.renumber σ).answer = s.answer.renumber σ := by
  unfold answer renumber
  dsimp only
  cases s.leaf <;> rfl

theorem firstLeast?_map {α β : Type} (rank? : β → Option Nat) (f : α → β) (xs : List α) :
    firstLeast? rank? (xs.map f) = (firstLeast? (fun x => rank? (f x)) xs).map f := by
  induction xs with
  | nil => rfl
  | cons x xs ih =>
    rw [List.map_cons, firstLeast?, firstLeast?, ih]
    cases rank? (f x) with
    | none => rfl
    | some r =>
      cases firstLeast? (fun x => rank? (f x)) xs with
      | none => rfl
      | some y =>
        dsimp only [Option.map_some]
        split <;> rfl

namespace Model

variable {m : Model}

/-- The model with its symbols changed. -/
def mapSymbols (f : Symbol → Symbol) : Model → Model
  | mixed symbols => mixed (symbols.map f)
  | children a => children { a with symbols := a.symbols.map f }
  | all g => all { g with members := g.members.map fun m => { m with symbol := f m.symbol } }
  | m => m

/-- The model with the numbers of declarations changed. -/
def renumber (σ : Nat → Nat) (m : Model) : Model := m.mapSymbols (Symbol.renumber σ)

theorem bind_eq_mapSymbols (resolve : Name → Option Nat) (m : Model) :
    m.bind resolve = m.mapSymbols (Symbol.bind resolve) := by cases m <;> rfl

theorem mapSymbols_mapSymbols (f f' : Symbol → Symbol) (m : Model) :
    (m.mapSymbols f).mapSymbols f' = m.mapSymbols (f' ∘ f) := by
  cases m with
  | children a => simp [mapSymbols]
  | mixed symbols => simp [mapSymbols]
  | all g => simp [mapSymbols]
  | _ => rfl

theorem mapSymbols_congr {f f' : Symbol → Symbol} (h : ∀ s ∈ m.symbols, f s = f' s) :
    m.mapSymbols f = m.mapSymbols f' := by
  cases m with
  | children a =>
    have hmap : a.symbols.map f = a.symbols.map f' :=
      Array.map_congr_left fun s hs => h s (Array.mem_toList_iff.mpr hs)
    exact congrArg (fun symbols => children { a with symbols }) hmap
  | mixed symbols => exact congrArg mixed (List.map_congr_left h)
  | all g =>
    have hmap : (g.members.map fun m => ({ m with symbol := f m.symbol } : AllMember)) =
        g.members.map fun m => { m with symbol := f' m.symbol } :=
      List.map_congr_left fun m hm => congrArg (fun symbol => ({ m with symbol } : AllMember))
        (h m.symbol (List.mem_map_of_mem hm))
    exact congrArg (fun members => all { g with members }) hmap
  | _ => rfl

/-- Names that are resolved to other numbers. -/
theorem bind_map_eq_renumber (h : ∀ s ∈ m.symbols, s.decl? = none) (resolve : Name → Option Nat) :
    m.bind (fun n => (resolve n).map σ) = (m.bind resolve).renumber σ := by
  unfold renumber
  rw [bind_eq_mapSymbols, bind_eq_mapSymbols, mapSymbols_mapSymbols]
  refine mapSymbols_congr fun s hs => ?_
  have hnone := h s hs
  unfold Symbol.bind Symbol.renumber
  dsimp only [Function.comp_apply]
  split
  · rfl
  · rw [hnone]
    exact congrArg (fun decl? => ({ s with decl? } : Symbol)) hnone

end Model

/-! ### Children -/

namespace Automaton

/-- The automaton with the numbers of declarations changed. -/
def renumber (σ : Nat → Nat) (a : Automaton) : Automaton :=
  { a with symbols := a.symbols.map (Symbol.renumber σ) }

theorem choices_renumber (a : Automaton) (state : Nat) : (a.renumber σ).choices state =
    (a.choices state).map (Prod.map (Symbol.renumber σ) id) := by
  unfold choices renumber
  dsimp only
  cases a.states[state]? with
  | none => rfl
  | some st =>
    dsimp only
    rw [List.map_filterMap]
    refine List.filterMap_congr fun y _ => ?_
    rw [Array.getElem?_map, Option.map_map, Option.map_map]
    rfl

theorem step?_renumber (a : Automaton) (state : Nat) (name : Name) :
    (a.renumber σ).step? c state name =
      (a.step? c state name).map (Prod.map (Symbol.renumber σ) id) := by
  unfold step?
  rw [choices_renumber, firstLeast?_map]
  rfl

theorem expected_renumber (a : Automaton) (state : Nat) :
    (a.renumber σ).expected state = a.expected state := by
  unfold expected
  rw [choices_renumber, List.map_map]
  rfl

end Automaton

namespace AllGroup

/-- The all-group with the numbers of declarations changed. -/
def renumber (σ : Nat → Nat) (g : AllGroup) : AllGroup :=
  { g with members := g.members.map fun m => { m with symbol := m.symbol.renumber σ } }

theorem openMembers_renumber (g : AllGroup) (counts : List Nat) :
    (g.renumber σ).openMembers counts = (g.openMembers counts).map fun x =>
      ({ x.1 with symbol := x.1.symbol.renumber σ }, x.2) := by
  unfold openMembers renumber
  dsimp only
  rw [List.zipIdx_map, List.filter_map]
  rfl

theorem accept_renumber (g : AllGroup) (counts : List Nat) (name : Name) :
    (g.renumber σ).accept c counts name =
      ((g.accept c counts name).1.renumber σ, (g.accept c counts name).2) := by
  have hrank (xs : List (AllMember × Nat)) :
      firstLeast? (fun x : AllMember × Nat => x.1.symbol.rank? c name)
          (xs.map fun x => ({ x.1 with symbol := x.1.symbol.renumber σ }, x.2)) =
        (firstLeast? (fun x : AllMember × Nat => x.1.symbol.rank? c name) xs).map
          fun x => ({ x.1 with symbol := x.1.symbol.renumber σ }, x.2) := firstLeast?_map _ _ xs
  unfold accept
  dsimp only
  rw [openMembers_renumber, hrank]
  cases firstLeast? (fun x : AllMember × Nat => x.1.symbol.rank? c name) (g.openMembers counts) with
  | some x => exact Prod.ext (x.1.symbol.answer_renumber) rfl
  | none =>
    refine Prod.ext ?_ rfl
    dsimp only [Option.map_none, Match.renumber]
    rw [List.map_map]
    rfl

theorem missing_renumber (g : AllGroup) (counts : List Nat) :
    (g.renumber σ).missing counts = g.missing counts := by
  unfold missing renumber
  dsimp only
  rw [List.zip_map_left, List.filter_map, List.map_map]
  rfl

end AllGroup

namespace Model

/-- **A renumbered model** answers with renumbered declarations. -/
theorem accept_renumber (m : Model) (s : ModelState) (name : Name) :
    (m.renumber σ).accept c s name = ((m.accept c s name).1.renumber σ, (m.accept c s name).2) := by
  cases m with
  | empty => cases s <;> rfl
  | any => rfl
  | simple => rfl
  | mixed symbols =>
    have hrank : firstLeast? (Symbol.rank? c name) (symbols.map (Symbol.renumber σ)) =
        (firstLeast? (Symbol.rank? c name) symbols).map (Symbol.renumber σ) :=
      firstLeast?_map _ _ symbols
    unfold renumber mapSymbols accept
    dsimp only
    rw [hrank, List.map_map]
    cases firstLeast? (Symbol.rank? c name) symbols with
    | some symbol => exact Prod.ext symbol.answer_renumber rfl
    | none => rfl
  | children a =>
    cases s with
    | children state =>
      have hmodel : (children a).renumber σ = children (a.renumber σ) := rfl
      rw [hmodel, accept, accept, Automaton.step?_renumber, Automaton.expected_renumber]
      cases a.step? c state name with
      | some x => exact Prod.ext x.1.answer_renumber rfl
      | none => rfl
    | _ => rfl
  | all g =>
    cases s with
    | all counts =>
      have hmodel : (all g).renumber σ = all (g.renumber σ) := rfl
      rw [hmodel, accept, accept, AllGroup.accept_renumber]
    | _ => rfl

theorem start_renumber (m : Model) : (m.renumber σ).start = m.start := by
  cases m with
  | all g => exact congrArg ModelState.all (by simp [Function.comp_def])
  | _ => rfl

theorem finish_renumber (m : Model) (s : ModelState) :
    (m.renumber σ).finish s = m.finish s := by
  cases m with
  | children a =>
    cases s with
    | children state =>
      have hmodel : (children a).renumber σ = children (a.renumber σ) := rfl
      rw [hmodel, finish, finish, Automaton.expected_renumber]
      rfl
    | _ => rfl
  | all g =>
    cases s with
    | all counts =>
      have hmodel : (all g).renumber σ = all (g.renumber σ) := rfl
      rw [hmodel, finish, finish, AllGroup.missing_renumber]
      rfl
    | _ => rfl
  | _ => rfl

end Model

/-! ## Grammars -/

/-- The declaration with the number of its element changed. -/
def AttributeDeclaration.renumber (σ : Nat → Nat) (a : AttributeDeclaration) :
    AttributeDeclaration := { a with element := σ a.element }

/-- The constraint with the numbers of its element and of the constraint that it refers to
changed. -/
def Constraint.renumber (σ ρ : Nat → Nat) (c : Constraint) : Constraint :=
  { c with refer? := c.refer?.map ρ, element := σ c.element }

/-- The declarations differ in numbers only, of elements by `σ` and of constraints by `ρ`. -/
structure ElementDeclaration.Renumbered (σ ρ : Nat → Nat) (g g' : Grammar)
    (d d' : ElementDeclaration) : Prop where
  name : d'.name = d.name
  childScope : d'.childScope = d.childScope
  category : d'.content.category = d.content.category
  model : d'.content.model = d.content.model.renumber σ
  type? : d'.type? = d.type?
  fixed? : d'.fixed? = d.fixed?
  attributeWildcard? : d'.attributeWildcard? = d.attributeWildcard?
  attributes : (g'.attributesOf d').map (·.2) =
    ((g.attributesOf d).map (·.2)).map (AttributeDeclaration.renumber σ)
  constraints : d'.constraints = d.constraints.map ρ

namespace Grammar

/-- Names of children are resolved to other numbers if names are. -/
theorem lookupChild_map {xs xs' : Array ElementDeclaration}
    (h : ∀ scope name, lookup xs' scope name = (lookup xs scope name).map σ) (scope : Scope)
    (name : Name) : lookupChild xs' scope name = (lookupChild xs scope name).map σ := by
  unfold lookupChild
  cases scope with
  | global => exact h .global name
  | within n =>
    dsimp only
    rw [h, h]
    cases lookup xs (.within n) name <;> rfl

/-- The grammars differ in numbers only, of elements by `σ` and of constraints by `ρ`. -/
structure Renumbered (σ ρ : Nat → Nat) (g g' : Grammar) : Prop where
  description : g'.description = g.description
  types : g'.types = g.types
  comparator : g'.comparator = g.comparator
  lookup : ∀ scope name, lookup g'.elements scope name = (lookup g.elements scope name).map σ
  element : ∀ i,
    Option.Rel (ElementDeclaration.Renumbered σ ρ g g') g.elements[i]? g'.elements[σ i]?
  constraint : ∀ i, g'.constraints[ρ i]? = (g.constraints[i]?).map (Constraint.renumber σ ρ)
  injective : Function.Injective ρ

namespace Renumbered

variable {g g' : Grammar} {d d' : ElementDeclaration} {name : Name}

theorem globalElement (h : g.Renumbered σ ρ g') (name : Name) :
    g'.globalElement name = (g.globalElement name).map σ := h.lookup .global name

theorem resolveChild (h : g.Renumbered σ ρ g') (scope : Scope) (name : Name) :
    g'.resolveChild scope name = (g.resolveChild scope name).map σ :=
  lookupChild_map h.lookup scope name

/-! ### Attributes -/

theorem findAttribute (hd : d.Renumbered σ ρ g g' d') (name : Name) :
    g'.findAttribute d' name = (g.findAttribute d name).map (AttributeDeclaration.renumber σ) := by
  have hfind (g : Grammar) (d : ElementDeclaration) : g.findAttribute d name =
      ((g.attributesOf d).map (·.2)).find? (·.name == name) := by
    rw [List.find?_map]
    rfl
  rw [hfind, hfind, hd.attributes, List.find?_map]
  rfl

theorem checkAttribute_eq (h : g.Renumbered σ ρ g') (hd : d.Renumbered σ ρ g g' d')
    (ctx : ValueContext) (path : String) (ids? : Option Identifiers) (a : Attribute) :
    g'.checkAttribute d' ctx path ids? a = g.checkAttribute d ctx path ids? a := by
  unfold checkAttribute
  rw [findAttribute hd, hd.name, h.types]
  have hallows : d'.allowsAttribute a.name = d.allowsAttribute a.name := by
    unfold ElementDeclaration.allowsAttribute
    rw [hd.attributeWildcard?]
  rw [hallows]
  cases g.findAttribute d a.name <;> rfl

theorem checkPresent_eq (h : g.Renumbered σ ρ g') (hd : d.Renumbered σ ρ g g' d')
    (ctx : ValueContext) (path : String) (ids? : Option Identifiers) (as : List Attribute) :
    g'.checkPresent d' ctx path ids? as = g.checkPresent d ctx path ids? as := by
  induction as generalizing ids? with
  | nil => rfl
  | cons a as ih =>
    rw [checkPresent, checkPresent, checkAttribute_eq h hd, ih]

/-- **What is wrong with attributes** does not depend on numbers. -/
theorem checkAttributes_eq (h : g.Renumbered σ ρ g') (hd : d.Renumbered σ ρ g g' d')
    (ctx : ValueContext) (ids? : Option Identifiers) (path : String) (as : List Attribute) :
    g'.checkAttributes d' ctx ids? path as = g.checkAttributes d ctx ids? path as := by
  have habsent : (((g'.attributesOf d').map (·.2)).filter fun a =>
      !as.any (·.name == a.name)).map (checkAbsent d' path) =
        (((g.attributesOf d).map (·.2)).filter fun a =>
          !as.any (·.name == a.name)).map (checkAbsent d path) := by
    rw [hd.attributes, List.filter_map, List.map_map]
    refine List.map_congr_left fun a _ => ?_
    unfold Function.comp checkAbsent
    rw [hd.name]
    rfl
  unfold checkAttributes
  dsimp only
  rw [checkPresent_eq h hd, habsent]

end Renumbered

end Grammar

end MarkupGrammar
