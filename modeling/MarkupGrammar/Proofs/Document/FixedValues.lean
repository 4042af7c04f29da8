import MarkupGrammar.Document.ContentWalk
import MarkupGrammar.Proofs.Document.ListReferences
import MarkupGrammar.Proofs.SimpleType.Spacing

/-! # Fixed values

The text of an element is compared with its fixed literal as a value, that of an attribute as a text
after the treatment of white space. So whatever is reported of an element is reported of an
attribute of the same type and with the same fixed literal; the converse holds for all texts exactly
if the type tells apart by their values all literals that it treats differently (`TellsApart`).
Types of texts do, and of the built-in types no others (`reportsFixed_alike`). -/

namespace MarkupGrammar

open Text

/-! ## Types that tell literals apart -/

namespace Builtin

variable {form : Form} {type s : String} {ctx : ValueContext} {a : Atom} {b : Builtin}

/-- Whether literals are kept as they are read. -/
def Form.isTextual : Form → Bool
  | text | language | name | uncolonizedName | nameToken | uri => true
  | boolean | decimal | integer _ _ | double | date | dateTime | time | base64 | hex
  | qualifiedName => false

/-- Whether values are texts or lists of texts. -/
def isTextual (b : Builtin) : Bool :=
  match b.kind with
  | .atomic form | .listOf _ form => form.isTextual

theorem text_of_readText {isInClass : List Char → Bool} (h : readText type s isInClass = .ok a) :
    a.text = s := by
  rw [readText] at h
  split at h
  · rw [← Except.ok.inj h, Atom.text]
  · cases h

theorem Form.text_of_read (hform : form.isTextual) (h : form.read type ctx s = .ok a) :
    a.text = s := by
  cases form with
  | text => rw [← Except.ok.inj h, Atom.text]
  | language =>
    rw [read] at h
    split at h
    · rw [← Except.ok.inj h, Atom.text]
    · cases h
  | name => exact text_of_readText h
  | uncolonizedName => exact text_of_readText h
  | nameToken => exact text_of_readText h
  | uri =>
    rw [read] at h
    split at h
    · cases h
    · split at h
      · rw [← Except.ok.inj h, Atom.text]
      · cases h
  | _ => exact absurd hform Bool.false_ne_true

end Builtin

namespace SimpleType

variable {ctx : ValueContext} {type : SimpleType}

/-- Literals with the same value are the same after the treatment of white space. -/
def TellsApart (type : SimpleType) (ctx : ValueContext) : Prop :=
  ∀ s s' v, type.validate ctx s = .ok v → type.validate ctx s' = .ok v →
    type.spacing.normalize s = type.spacing.normalize s'

/-- Whether values are texts or lists of texts, which the derivation treats no less than the base
does, and lists word by word. -/
def isTextual : SimpleType → Bool
  | builtin b => b.isTextual
  | derived d base =>
    base.isTextual &&
      match d.variety with
      | .restriction => decide (base.spacing ≤ d.spacing)
      | .list => d.spacing == .collapse
  | orphan _ => false

theorem tellsApart_builtin {b : Builtin} (hb : b ∈ Builtin.all) (h : b.isTextual) :
    (builtin b).TellsApart ctx := by
  have hlist : ∀ b ∈ Builtin.all, b.isList → b.spacing = .collapse := by decide
  intro s s' v hs hs'
  rw [validate, Builtin.validate] at hs hs'
  rw [Builtin.isTextual] at h
  cases hkind : b.kind with
  | atomic form =>
    rw [hkind] at h
    rw [Builtin.read, hkind] at hs hs'
    obtain ⟨a, ha, rfl⟩ := of_map_eq_ok hs
    obtain ⟨a', ha', haa'⟩ := of_map_eq_ok hs'
    obtain rfl := Value.atom.inj haa'
    exact (Builtin.Form.text_of_read h ha).symm.trans (Builtin.Form.text_of_read h ha')
  | listOf item form =>
    rw [hkind] at h
    have hspacing : b.spacing = .collapse := hlist b hb (by rw [Builtin.isList, hkind])
    obtain ⟨items, hread, rfl⟩ := Builtin.of_read_listOf hkind hs
    obtain ⟨items', hread', heq⟩ := Builtin.of_read_listOf hkind hs'
    obtain rfl : items = items' :=
      List.map_injective_iff.mpr (fun _ _ => Value.atom.inj) (Value.list.inj heq)
    have hwords := eq_of_mapM hread hread' fun w _ w' _ a ha ha' =>
      (Builtin.Form.text_of_read h ha).symm.trans (Builtin.Form.text_of_read h ha')
    rw [Spacing.words_normalize, Spacing.words_normalize] at hwords
    rw [spacing, hspacing]
    exact congrArg (joined " ") hwords

theorem tellsApart_restriction {d : Definition} {base : SimpleType}
    (hd : d.variety = .restriction) (h : base.TellsApart ctx) (hle : base.spacing ≤ d.spacing) :
    (derived d base).TellsApart ctx := by
  intro s s' v hs hs'
  have hread := (validate_eq_ok_iff.mp hs).1
  have hread' := (validate_eq_ok_iff.mp hs').1
  rw [hd] at hread hread'
  have heq := h _ _ v hread hread'
  rw [Spacing.normalize_normalize, Spacing.normalize_normalize, max_eq_left hle] at heq
  exact heq

theorem tellsApart_list {d : Definition} {base : SimpleType} (hd : d.variety = .list)
    (h : base.TellsApart ctx) (hspacing : d.spacing = .collapse) :
    (derived d base).TellsApart ctx := by
  intro s s' v hs hs'
  have hread := (validate_eq_ok_iff.mp hs).1
  have hread' := (validate_eq_ok_iff.mp hs').1
  rw [hd, readByBase, Spacing.words_normalize] at hread hread'
  obtain ⟨items, hitems, rfl⟩ := of_map_eq_ok hread
  obtain ⟨items', hitems', heq⟩ := of_map_eq_ok hread'
  obtain rfl := Value.list.inj heq
  -- a word is the same after any treatment
  have hwords : words s = words s' := eq_of_mapM hitems hitems' fun w hw w' hw' v hv hv' => by
    have hnormal := h w w' v hv hv'
    rwa [Spacing.normalize_of_isWord _ (isWord_of_mem_words hw),
      Spacing.normalize_of_isWord _ (isWord_of_mem_words hw')] at hnormal
  rw [spacing, hspacing]
  exact congrArg (joined " ") hwords

/-- **Types of texts** tell literals apart. -/
theorem tellsApart_of_isTextual (hroot : type.IsRooted) (h : type.isTextual) :
    type.TellsApart ctx := by
  induction type with
  | builtin b => exact tellsApart_builtin (hroot b rfl) h
  | derived d base ih =>
    rw [isTextual, Bool.and_eq_true] at h
    cases hd : d.variety with
    | restriction =>
      rw [hd] at h
      exact tellsApart_restriction hd (ih hroot h.1) (of_decide_eq_true h.2)
    | list =>
      rw [hd] at h
      exact tellsApart_list hd (ih hroot h.1) (eq_of_beq h.2)
  | orphan d => exact absurd h Bool.false_ne_true

/-- Literals that are treated differently, but have the same value in some built-in type. -/
def twins : List (String × String) := [
  ("1", "true"), ("1", "01"), ("-1", "-01"), ("1", "1.0"), ("2000-01-01Z", "2000-01-01+00:00"),
  ("2000-01-01T00:00:00Z", "2000-01-01T00:00:00+00:00"), ("12:00:00Z", "12:00:00+00:00"),
  ("YQ==", "YQ= ="), ("0a", "0A"), ("x", "p:x")]

/-- The other built-in types do not. -/
theorem exists_twins : ∀ b ∈ Builtin.all, b.isTextual = false → ∃ p ∈ twins,
    (b.validate {} p.1).toOption.isSome ∧
      (b.validate {} p.1).toOption = (b.validate {} p.2).toOption ∧
      b.spacing.normalize p.1 ≠ b.spacing.normalize p.2 := by
  decide +kernel

end SimpleType

/-! ## Reports of fixed values -/

variable {g : Grammar} {types : TypeTable} {ctx : ValueContext} {type : SimpleType}
  {a : AttributeDeclaration} {d : ElementDeclaration} {e : OpenElement} {n : Name}
  {fixed path s : String} {ids? : Option Identifiers} {v v' : Value}

namespace AttributeDeclaration

/-- The attribute has a simple type and a fixed literal. -/
structure HasFixed (a : AttributeDeclaration) (n : Name) (fixed : String) : Prop where
  typeName_eq : a.type.typeName = n
  /-- The type does not list its values. -/
  listed_eq : a.type.listed? = none
  presence_eq : a.presence = .fixed fixed

/-- The check of a value reports that it is not the fixed one. -/
def ReportsFixed (a : AttributeDeclaration) (types : TypeTable) (ctx : ValueContext)
    (ids? : Option Identifiers) (path value : String) : Prop :=
  ∃ cause text, a.checkValue types ctx ids? path value = .error (cause, text) ∧
    cause.kind = .fixedValueMismatch

/-- **Attributes are compared as texts.** -/
theorem HasFixed.reportsFixed_iff (h : a.HasFixed n fixed) (htype : types.find? n = some type)
    (hv : type.validate ctx s = .ok v) :
    a.ReportsFixed types ctx ids? path s ↔
      type.spacing.normalize s ≠ type.spacing.normalize fixed := by
  have hcheck : a.type.check types ctx s = .ok (type.spacing.normalize s) := by
    rw [AttributeType.check, h.typeName_eq, htype]
    dsimp only
    rw [hv, h.listed_eq]
    rfl
  have hother : a.fixedOtherThan? types (type.spacing.normalize s) =
      if type.spacing.normalize fixed = type.spacing.normalize s then none else some fixed := by
    rw [fixedOtherThan?, h.presence_eq, h.typeName_eq, htype]
  by_cases heq : type.spacing.normalize fixed = type.spacing.normalize s
  · rw [if_pos heq] at hother
    refine iff_of_false ?_ (not_not.mpr heq.symm)
    rintro ⟨cause, text, hvalue, hkind⟩
    have haccepted : a.accepted? types ctx s = some (type.spacing.normalize s) := by
      simp [accepted?, hcheck, hother]
    rw [checkValue_of_some haccepted] at hvalue
    -- an identifier may be reported then, but no fixed value
    cases ids? with
    | none => cases hvalue
    | some ids =>
      dsimp only at hvalue
      cases henter : ids.enter (types.idRole a.type.typeName) (type.spacing.normalize s) path with
      | ok ids' =>
        rw [henter] at hvalue
        cases hvalue
      | error cause' =>
        rw [henter] at hvalue
        obtain ⟨rfl, -⟩ := Prod.mk.inj (Except.error.inj hvalue)
        have hcheck := Identifiers.check_enter henter
        rw [hkind] at hcheck
        cases hcheck
  · rw [if_neg heq] at hother
    refine iff_of_true ⟨.fixedAttribute a.name fixed, s, ?_, rfl⟩ (Ne.symm heq)
    simp [checkValue, hcheck, hother, Except.mapError, bind, Except.bind, throw, throwThe,
      MonadExceptOf.throw]

end AttributeDeclaration

namespace ElementDeclaration

/-- The element has a simple type for its content, and a fixed literal. -/
structure HasFixed (d : ElementDeclaration) (n : Name) (fixed : String) : Prop where
  category_eq : d.content.category = .simple
  type_eq : d.type? = some n
  fixed_eq : d.fixed? = some fixed

end ElementDeclaration

namespace ContentWalk

/-- The check of the content of an element reports that it is not the fixed value. -/
def ReportsFixed (g : Grammar) (ctx : ValueContext) (d : ElementDeclaration) (e : OpenElement) :
    Prop :=
  ∃ v ∈ checkContent g ctx d e, v.kind = .fixedValueMismatch

/-- It is the check of the text that reports it, not that of the children. -/
theorem reportsFixed_iff_checkText (h : d.content.category = .simple) :
    ReportsFixed g ctx d e ↔ ∃ v ∈ checkText g ctx d e, v.kind = .fixedValueMismatch := by
  rw [ReportsFixed, checkContent, if_pos h]
  constructor
  · rintro ⟨v, hv, hkind⟩
    rcases List.mem_append.mp hv with hv | hv
    · split at hv
      · exact absurd hv List.not_mem_nil
      · obtain rfl := List.mem_singleton.mp hv
        cases hkind
    · exact ⟨v, hv, hkind⟩
  · rintro ⟨v, hv, hkind⟩
    exact ⟨v, List.mem_append_right _ hv, hkind⟩

end ContentWalk

/-- **Elements are compared as values.** -/
theorem ElementDeclaration.HasFixed.reportsFixed_iff (h : d.HasFixed n fixed)
    (htype : g.types.find? n = some type) (hfixed : type.validate ctx fixed = .ok v)
    (hv : type.validate ctx e.text = .ok v') :
    ContentWalk.ReportsFixed g ctx d e ↔ v' ≠ v := by
  have htext : ContentWalk.checkText g ctx d e =
      if v = v' then []
      else [⟨.fixedContent d.name fixed, some e.name, some e.text, some e.path⟩] := by
    rw [ContentWalk.checkText, h.type_eq, Option.bind_some, htype]
    dsimp only
    rw [hv, h.fixed_eq]
    dsimp only
    rw [ContentWalk.agreesWithFixed, hfixed]
    simp only [beq_iff_eq]
  rw [ContentWalk.reportsFixed_iff_checkText h.category_eq, htext]
  split
  · rename_i heq
    simp [heq]
  · rename_i hne
    exact iff_of_true ⟨_, .head _, rfl⟩ (Ne.symm hne)

/-! ## Attributes and elements -/

/-- Whatever text they have, if only it is of the type, the fixed value is reported of attributes
and of elements alike. -/
def Grammar.ReportsAlike (g : Grammar) (n : Name) (type : SimpleType) (ctx : ValueContext) : Prop :=
  ∀ a d e fixed v v' ids? path, AttributeDeclaration.HasFixed a n fixed →
    ElementDeclaration.HasFixed d n fixed → type.validate ctx fixed = .ok v →
    type.validate ctx e.text = .ok v' →
    (a.ReportsFixed g.types ctx ids? path e.text ↔ ContentWalk.ReportsFixed g ctx d e)

theorem reportsAlike_iff (htype : g.types.find? n = some type) :
    g.ReportsAlike n type ctx ↔ type.TellsApart ctx := by
  constructor
  · intro h s s' v hs hs'
    by_contra hne
    let a : AttributeDeclaration := ⟨n, .simple n, .fixed s', 0⟩
    let d : ElementDeclaration :=
      { name := n, scope := .global, childScope := .global, content := { category := .simple }
        type? := some n, fixed? := some s' }
    let e : OpenElement := { name := n, mode := .lax, state := default, path := "", text := s }
    have ha : a.HasFixed n s' := ⟨rfl, rfl, rfl⟩
    have hd : d.HasFixed n s' := ⟨rfl, rfl, rfl⟩
    have hreport : a.ReportsFixed g.types ctx none "" s :=
      (ha.reportsFixed_iff htype hs).mpr hne
    exact (hd.reportsFixed_iff htype hs' hs).mp ((h a d e s' v v none "" ha hd hs' hs).mp hreport)
      rfl
  · intro h a d e fixed v v' ids? path ha hd hfixed hv
    rw [ha.reportsFixed_iff htype hv, hd.reportsFixed_iff htype hfixed hv, not_iff_not]
    refine ⟨fun heq => SimpleType.value_eq_of_normalize_eq heq hv hfixed, ?_⟩
    rintro rfl
    exact h _ _ _ hv hfixed

/-- **Fixed values of attributes and elements.** Of texts and fixed literals that are of the type,
the fixed value is reported of an attribute if they differ after the treatment of white space, and
of an element if their values do; then it is reported of the attribute, too. For all texts it is
reported of both or of none exactly if the type tells its literals apart. Types of texts do, and of
the built-in types no others. -/
theorem reportsFixed_alike {draft : GrammarDraft} {limits : Limits}
    (hg : draft.compile limits = .ok g) (htype : g.types.find? n = some type)
    (ctx : ValueContext) :
    (∀ a d e fixed v v' ids? path, AttributeDeclaration.HasFixed a n fixed →
      ElementDeclaration.HasFixed d n fixed → type.validate ctx fixed = .ok v →
      type.validate ctx e.text = .ok v' →
      (a.ReportsFixed g.types ctx ids? path e.text ↔
        type.spacing.normalize e.text ≠ type.spacing.normalize fixed) ∧
      (ContentWalk.ReportsFixed g ctx d e ↔ v' ≠ v) ∧
      (ContentWalk.ReportsFixed g ctx d e → a.ReportsFixed g.types ctx ids? path e.text)) ∧
    (g.ReportsAlike n type ctx ↔ type.TellsApart ctx) ∧
    (type.isTextual → type.TellsApart ctx) ∧
    (∀ b, type = .builtin b → (type.TellsApart {} ↔ b.isTextual)) := by
  have hroot : type.IsRooted := fun b hb => GrammarDraft.rooted_of_compile hg n b (by
    rw [TypeTable.root?, htype, Option.bind_some, hb])
  refine ⟨fun a d e fixed v v' ids? path ha hd hfixed hv => ?_, reportsAlike_iff htype,
    SimpleType.tellsApart_of_isTextual hroot, ?_⟩
  · have hattribute : a.ReportsFixed g.types ctx ids? path e.text ↔ _ :=
      ha.reportsFixed_iff htype hv
    have helement := hd.reportsFixed_iff htype hfixed hv
    exact ⟨hattribute, helement, fun h => hattribute.mpr fun heq =>
      helement.mp h (SimpleType.value_eq_of_normalize_eq heq hv hfixed)⟩
  · rintro b rfl
    refine ⟨fun h => ?_, SimpleType.tellsApart_builtin (hroot b rfl)⟩
    by_contra hno
    rw [Bool.not_eq_true] at hno
    obtain ⟨p, -, hsome, heq, hne⟩ := SimpleType.exists_twins b (hroot b rfl) hno
    obtain ⟨v, hv⟩ := Option.isSome_iff_exists.mp hsome
    exact hne (h p.1 p.2 v (eq_ok_of_toOption hv) (eq_ok_of_toOption (heq.symm.trans hv)))

/-- A part whose amount has a fixed value, which is said twice. -/
def fixedPart : GrammarDraft where
  description := .schema none
  elements := [
    { name := .unqualified "part"
      content := .simple (.unqualified "decimal")
      attributes := [
        { name := .unqualified "amount", type := .simple (.unqualified "decimal")
          presence := .fixed "1.0" }]
      fixed? := some "1.0" }]

/-- The amount. -/
def amount : AttributeDeclaration :=
  ⟨.unqualified "amount", .simple (.unqualified "decimal"), .fixed "1.0", 0⟩

/-- A part with another literal of the same value. -/
def openPart : OpenElement :=
  { name := .unqualified "part", mode := .declared 0, state := .simple, path := "/part"
    text := "1.00" }

/-- The part is declared with its amount, and there are no types but the built-in ones. -/
theorem compile_fixedPart : ∃ g d, fixedPart.compile {} = .ok g ∧
    (∀ n, g.types.find? n = (Builtin.ofName? n).map .builtin) ∧
    amount ∈ g.attributes ∧ d ∈ g.elements ∧
    d.HasFixed (.unqualified "decimal") "1.0" := by
  have hall : (fixedPart.compile {}).toOption.map (fun g =>
      (g.types.derived.isEmpty && g.attributes.contains amount,
        (g.elements[0]?).map fun d => (d.content.category, d.type?, d.fixed?))) =
      some (true, some (.simple, some (.unqualified "decimal"), some "1.0")) := by
    decide +kernel
  obtain ⟨g, hg, hall⟩ := Option.map_eq_some_iff.mp hall
  simp only [Prod.mk.injEq, Option.map_eq_some_iff, Bool.and_eq_true] at hall
  obtain ⟨⟨htypes, hmem⟩, d, hd, hcategory, htype, hfixed⟩ := hall
  refine ⟨g, d, eq_ok_of_toOption hg, fun n => ?_, Array.contains_iff_mem.mp hmem,
    Array.mem_of_getElem? hd, ⟨hcategory, htype, hfixed⟩⟩
  rw [TypeTable.find?, List.isEmpty_iff.mp htypes]
  rfl

/-- On tokens all reports are alike, on decimal numbers they are not. -/
theorem reportsFixed_alike_fixedPart : ∃ g token decimal, fixedPart.compile {} = .ok g ∧
    g.types.find? (.unqualified "token") = some token ∧
    g.types.find? (.unqualified "decimal") = some decimal ∧
    g.ReportsAlike (.unqualified "token") token {} ∧
    ¬ g.ReportsAlike (.unqualified "decimal") decimal {} := by
  obtain ⟨g, -, hg, hfind, -⟩ := compile_fixedPart
  have htoken := reportsFixed_alike hg (hfind (.unqualified "token")) {}
  have hdecimal := reportsFixed_alike hg (hfind (.unqualified "decimal")) {}
  refine ⟨g, _, _, hg, hfind _, hfind _, htoken.2.1.mpr (htoken.2.2.1 rfl), fun h => ?_⟩
  exact absurd ((hdecimal.2.2.2 _ rfl).mp (hdecimal.2.1.mp h)) (by decide)

/-- The fixed value is reported of the amount, but not of the content of the part, although both
have the same value, which is the fixed one. -/
theorem exists_fixed_notAlike : ∃ g d type v, fixedPart.compile {} = .ok g ∧
    amount ∈ g.attributes ∧ d ∈ g.elements ∧
    g.types.find? (.unqualified "decimal") = some type ∧
    amount.HasFixed (.unqualified "decimal") "1.0" ∧
    d.HasFixed (.unqualified "decimal") "1.0" ∧
    type.validate {} "1.0" = .ok v ∧ type.validate {} openPart.text = .ok v ∧
    amount.ReportsFixed g.types {} none "/part" openPart.text ∧
    ¬ ContentWalk.ReportsFixed g {} d openPart := by
  obtain ⟨g, d, hg, hfind, hamount, hd, hpart⟩ := compile_fixedPart
  let type : SimpleType := .builtin (Builtin.atomic "decimal" "anySimpleType" .decimal)
  have htype : g.types.find? (.unqualified "decimal") = some type := hfind _
  obtain ⟨v, hv⟩ : ∃ v, type.validate {} "1.0" = .ok v := exists_of_isOk (by decide)
  have hsame : (type.validate {} openPart.text).toOption = (type.validate {} "1.0").toOption := by
    decide
  have hv' : type.validate {} openPart.text = .ok v := eq_ok_of_toOption (by rw [hsame, hv]; rfl)
  have hfixed : amount.HasFixed (.unqualified "decimal") "1.0" := ⟨rfl, rfl, rfl⟩
  exact ⟨g, d, type, v, hg, hamount, hd, htype, hfixed, hpart, hv, hv',
    (hfixed.reportsFixed_iff htype hv').mpr (by decide),
    fun h => (hpart.reportsFixed_iff htype hv hv').mp h rfl⟩

end MarkupGrammar
