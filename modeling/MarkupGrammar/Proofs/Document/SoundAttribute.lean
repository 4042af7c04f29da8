import MarkupGrammar.Proofs.Document.OptionalCheck
import MarkupGrammar.Proofs.Grammar.Attributes

/-! # Sound attributes

An attribute of a start tag is *sound* if it is declared for its element and passes the checks of
its type, its listed values and its fixed value. Only sound attributes declare identifiers or refer
to them; which they do is determined by their type. What the check of an attribute does to the
identifiers, and what it reports, is that of the sound attribute or independent of the identifiers
(`checkAttribute_cases`). -/

namespace MarkupGrammar

variable {g : Grammar} {types : TypeTable} {ctx : ValueContext} {e : Placed}
  {d : ElementDeclaration}

/-! ## Sound attributes -/

/-- An attribute that has passed its checks. -/
structure SoundAttribute where
  name : Name
  /-- The simple type of its values. -/
  type : Name
  /-- The value after the treatment of white space. -/
  value : String
  /-- The path of the element. -/
  path : String
  deriving DecidableEq, Repr

/-- A literal after the treatment of white space, if it passes the checks of the type, the listed
values and the fixed value. -/
def AttributeDeclaration.accepted? (a : AttributeDeclaration) (types : TypeTable)
    (ctx : ValueContext) (literal : String) : Option String :=
  match a.type.check types ctx literal with
  | .ok treated => if (a.fixedOtherThan? types treated).isSome then none else some treated
  | .error _ => none

namespace Placed

/-- An attribute of the element, if it is sound. -/
def soundAttribute? (g : Grammar) (ctx : ValueContext) (e : Placed) (a : Attribute) :
    Option SoundAttribute :=
  (e.declaration? g).bind fun d => (g.findAttribute d a.name).bind fun declared =>
    (declared.accepted? g.types ctx a.value).map fun value =>
      ⟨a.name, declared.type.typeName, value, e.path⟩

/-- The sound attributes of the element, in the order of its start tag. Those that are addressed to
the reader or the validator do not count. -/
def soundAttributes (g : Grammar) (ctx : ValueContext) (e : Placed) (as : List Attribute) :
    List SoundAttribute :=
  (as.filter (!·.isReserved)).filterMap (e.soundAttribute? g ctx)

theorem soundAttributes_append (as bs : List Attribute) : e.soundAttributes g ctx (as ++ bs) =
    e.soundAttributes g ctx as ++ e.soundAttributes g ctx bs := by
  rw [soundAttributes, List.filter_append, List.filterMap_append]
  rfl

end Placed

namespace SoundAttribute

variable {xs ys : List SoundAttribute} {x : SoundAttribute}

/-- The identifier that the attribute declares. -/
def identifier? (types : TypeTable) (x : SoundAttribute) : Option String :=
  if types.derives x.type "ID" then some x.value else none

/-- The identifiers that the attribute refers to. -/
def references (types : TypeTable) (x : SoundAttribute) : List String :=
  if types.derives x.type "IDREF" then [x.value]
  else if types.derives x.type "IDREFS" then Text.words x.value
  else []

/-- The identifiers that attributes declare. -/
def identifiers (types : TypeTable) (xs : List SoundAttribute) : List String :=
  xs.filterMap (identifier? types)

/-- The report of an attribute that declares an identifier that is declared before. -/
def duplicate (types : TypeTable) (before : List SoundAttribute) (x : SoundAttribute) :
    List Violation :=
  match x.identifier? types with
  | some id =>
    if id ∈ identifiers types before then
      [⟨.duplicateId id, some x.name, some id, some x.path⟩]
    else []
  | none => []

/-- The reports of attributes that declare identifiers that are declared before. -/
def duplicates (types : TypeTable) (before : List SoundAttribute) :
    List SoundAttribute → List Violation
  | [] => []
  | x :: xs => x.duplicate types before ++ duplicates types (before ++ [x]) xs

/-- The reports of references to identifiers that no attribute declares. -/
def danglings (types : TypeTable) (xs : List SoundAttribute) : List Violation :=
  xs.flatMap fun x => ((x.references types).filter (· ∉ identifiers types xs)).map fun id =>
    Validation.danglingViolation ⟨id, x.path⟩

theorem duplicates_append {zs : List SoundAttribute} : duplicates types xs (ys ++ zs) =
    duplicates types xs ys ++ duplicates types (xs ++ ys) zs := by
  induction ys generalizing xs with
  | nil => simp [duplicates]
  | cons y ys ih =>
    rw [List.cons_append, duplicates, ih, duplicates, List.append_assoc, List.append_assoc]
    rfl

theorem identifiers_append : identifiers types (xs ++ ys) =
    identifiers types xs ++ identifiers types ys := List.filterMap_append

theorem violationsOf_duplicate (types : TypeTable) (xs : List SoundAttribute) (x : SoundAttribute) :
    violationsOf .duplicateId (x.duplicate types xs) = x.duplicate types xs ∧
      violationsOf .danglingIdref (x.duplicate types xs) = [] := by
  unfold duplicate
  split
  · split
    · exact ⟨rfl, rfl⟩
    · exact ⟨rfl, rfl⟩
  · exact ⟨rfl, rfl⟩

/-- What the attribute does to the identifiers, if they are kept, and what is reported of it. -/
def entered (types : TypeTable) (x : SoundAttribute) : Option Identifiers →
    Option Identifiers × List Violation
  | none => (none, [])
  | some t =>
    match t.enter (types.idRole x.type) x.value x.path with
    | .ok t => (some t, [])
    | .error cause => (some t, [⟨cause, some x.name, some x.value, some x.path⟩])

end SoundAttribute

/-! ## The check of an attribute -/

namespace AttributeDeclaration

variable {a : AttributeDeclaration} {ids? : Option Identifiers} {path value : String}

/-- An attribute that is not sound fails without regard to the identifiers. -/
theorem checkValue_of_none (a : AttributeDeclaration) (path : String)
    (h : a.accepted? types ctx value = none) :
    ∃ cause, cause.kind.check? = none ∧
      ∀ ids?, a.checkValue types ctx ids? path value = .error (cause, value) := by
  unfold accepted? at h
  unfold checkValue
  cases hc : a.type.check types ctx value with
  | error reason =>
    exact ⟨.invalidAttribute a.name reason, rfl, fun _ => rfl⟩
  | ok treated =>
    rw [hc] at h
    dsimp only at h
    cases hf : a.fixedOtherThan? types treated with
    | none => rw [hf] at h; exact nomatch h
    | some fixed =>
      refine ⟨.fixedAttribute a.name fixed, rfl, fun ids? => ?_⟩
      simp [hf, Except.mapError, bind, Except.bind, throw, throwThe, MonadExceptOf.throw]

/-- A sound attribute is entered. -/
theorem checkValue_of_some {treated : String} (h : a.accepted? types ctx value = some treated) :
    a.checkValue types ctx ids? path value = match ids? with
      | none => .ok none
      | some t => ((t.enter (types.idRole a.type.typeName) treated path).mapError
          (·, treated)).map some := by
  unfold accepted? at h
  unfold checkValue
  cases hc : a.type.check types ctx value with
  | error reason => rw [hc] at h; exact nomatch h
  | ok treated' =>
    rw [hc] at h
    dsimp only at h
    cases hf : a.fixedOtherThan? types treated' with
    | some fixed => rw [hf] at h; exact nomatch h
    | none =>
      rw [hf] at h
      obtain rfl := Option.some.inj h
      cases ids? with
      | none => simp [hf, Except.mapError, bind, Except.bind, pure, Except.pure]
      | some t =>
        simp only [Except.mapError, bind, Except.bind, hf]
        cases t.enter (types.idRole a.type.typeName) treated' path <;> rfl

end AttributeDeclaration

namespace Grammar

/-- An attribute of a start tag as it counts. -/
def effectiveOf (g : Grammar) (d : ElementDeclaration) (a : Attribute) : List EffectiveAttribute :=
  if a.isReserved then []
  else [.ofAttribute a ((g.findAttribute d a.name).map (·.type.typeName))]

theorem effective_checkAttribute (ids? : Option Identifiers) (path : String) (a : Attribute) :
    (g.checkAttribute d ctx path ids? a).effective = g.effectiveOf d a := by
  unfold checkAttribute effectiveOf
  split
  · rfl
  · cases g.findAttribute d a.name with
    | none => rfl
    | some declared =>
      dsimp only
      split <;> rfl

/-- **The check of an attribute**: it is not sound, and what is reported does not depend on the
identifiers, or it is sound and entered. -/
theorem checkAttribute_cases (ctx : ValueContext) (hd : e.declaration? g = some d) (a : Attribute) :
    (e.soundAttributes g ctx [a] = [] ∧ ∃ vs, Plain vs ∧
      (a.isReserved = false → (g.findAttribute d a.name).isSome → vs.length = 1) ∧
      ∀ ids?, g.checkAttribute d ctx e.path ids? a = ⟨g.effectiveOf d a, vs, ids?⟩) ∨
    ∃ x, e.soundAttribute? g ctx a = some x ∧ e.soundAttributes g ctx [a] = [x] ∧
      ∀ ids?, g.checkAttribute d ctx e.path ids? a =
        ⟨g.effectiveOf d a, (x.entered g.types ids?).2, (x.entered g.types ids?).1⟩ := by
  unfold checkAttribute effectiveOf
  by_cases hr : a.isReserved
  · refine .inl ⟨by simp [Placed.soundAttributes, hr], [], plain_nil, fun hno => ?_, fun ids? => ?_⟩
    · rw [hr] at hno
      exact Bool.noConfusion hno
    · rw [if_pos hr, if_pos hr]
  · have hsound : e.soundAttributes g ctx [a] = (e.soundAttribute? g ctx a).toList := by
      rw [Bool.not_eq_true] at hr
      cases h : e.soundAttribute? g ctx a <;> simp [Placed.soundAttributes, hr, h]
    rw [hsound]
    simp only [if_neg hr]
    unfold Placed.soundAttribute?
    rw [hd]
    dsimp only [Option.bind_some]
    cases hf : g.findAttribute d a.name with
    | none =>
      refine .inl ⟨rfl, _, ?_, fun _ hsome => Bool.noConfusion hsome, fun ids? => rfl⟩
      split
      · exact plain_nil
      · exact plain_singleton rfl
    | some declared =>
      dsimp only [Option.bind_some, Option.map_some]
      cases ha : declared.accepted? g.types ctx a.value with
      | none =>
        obtain ⟨cause, hkind, hcheck⟩ := declared.checkValue_of_none e.path ha
        refine .inl ⟨rfl, [⟨cause, some a.name, some a.value, some e.path⟩],
          plain_singleton hkind, fun _ _ => rfl, fun ids? => ?_⟩
        rw [hcheck]
      | some treated =>
        refine .inr ⟨⟨a.name, declared.type.typeName, treated, e.path⟩, rfl, rfl, fun ids? => ?_⟩
        rw [AttributeDeclaration.checkValue_of_some ha]
        cases ids? with
        | none => rfl
        | some t =>
          dsimp only [SoundAttribute.entered]
          cases t.enter (g.types.idRole declared.type.typeName) treated e.path <;> rfl

end Grammar

end MarkupGrammar
