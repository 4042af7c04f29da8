import MarkupGrammar.Proofs.Document.Identifiers
import MarkupGrammar.Proofs.SimpleType.Spacing

/-! # References in lists

A list of references has the words of its literal for items, however the type has been derived
(`validate_isReferenceList`). What an attribute of such a type refers to depends on the built-in
type at the end of the derivation alone: to the items if that is the type of lists of references,
and to the literal as a whole, blanks included, if it is the type of single references.
`checkValue_isReferenceList` tells when this is one reference for each item, and when no reference
dangles although all items are declared. -/

namespace MarkupGrammar

open Text

variable {ctx : ValueContext} {type : SimpleType} {s : String} {v : Value}

/-! ## Types of references -/

namespace SimpleType

/-- Whether values are references: the type is derived by restriction from the built-in one. -/
def isReference : SimpleType → Bool
  | builtin b => b.derivesFrom "IDREF"
  | derived d base =>
    match d.variety with
    | .restriction => base.isReference
    | .list => false
  | orphan _ => false

/-- Whether values are lists of references: the built-in type of such lists, a list over a type of
references, or a restriction of one of them. -/
def isReferenceList : SimpleType → Bool
  | builtin b => b.derivesFrom "IDREFS"
  | derived d base =>
    match d.variety with
    | .restriction => base.isReferenceList
    | .list => base.isReference
  | orphan _ => false

/-- The built-in type at the end of the derivation is one of the table. -/
def IsRooted (t : SimpleType) : Prop := ∀ b, t.root? = some b → b ∈ Builtin.all

end SimpleType

namespace Builtin

theorem eq_of_derivesFrom_reference : ∀ b ∈ all, b.derivesFrom "IDREF" →
    b = atomic "IDREF" "NCName" .uncolonizedName := by
  decide

theorem eq_of_derivesFrom_references : ∀ b ∈ all, b.derivesFrom "IDREFS" →
    b = list "IDREFS" "IDREF" .uncolonizedName := by
  decide

/-- A list of a built-in type has the words of its literal for items. -/
theorem of_read_listOf {b : Builtin} {item : String} {form : Form}
    (hkind : b.kind = .listOf item form) (h : b.read ctx s = .ok v) :
    ∃ items, (words s).mapM (fun word => form.read item ctx word) = .ok items ∧
      v = .list (items.map .atom) := by
  rw [read, hkind] at h
  obtain ⟨items, hitems, h⟩ := of_bind_eq_ok h
  refine ⟨items, hitems, ?_⟩
  dsimp only at h
  split at h
  · exact nomatch h
  · exact (Except.ok.inj h).symm

end Builtin

namespace SimpleType

theorem read_uncolonizedName {name : String} {a : Atom}
    (h : Builtin.Form.read name ctx s .uncolonizedName = .ok a) : a = .string s := by
  rw [Builtin.Form.read, Builtin.readText] at h
  split at h
  · exact (Except.ok.inj h).symm
  · exact nomatch h

/-- A word is read as itself. -/
theorem validate_isReference (hroot : type.IsRooted) (h : type.isReference)
    (hs : IsWord s.toList) (hv : type.validate ctx s = .ok v) : v = .string s := by
  induction type with
  | builtin b =>
    obtain rfl := Builtin.eq_of_derivesFrom_reference b (hroot b rfl) h
    rw [validate, Builtin.validate, Builtin.read, Spacing.normalize_of_isWord _ hs] at hv
    obtain ⟨a, ha, rfl⟩ := of_map_eq_ok hv
    rw [read_uncolonizedName ha]
    rfl
  | derived d base ih =>
    have hread := (validate_eq_ok_iff.mp hv).1
    rw [isReference] at h
    cases hd : d.variety with
    | restriction =>
      rw [hd] at h hread
      rw [readByBase, Spacing.normalize_of_isWord _ hs] at hread
      exact ih hroot h hread
    | list =>
      rw [hd] at h
      exact absurd h Bool.false_ne_true
  | orphan d => exact absurd h Bool.false_ne_true

/-- **The items of a list of references** are the words of the literal. -/
theorem validate_isReferenceList (hroot : type.IsRooted) (h : type.isReferenceList)
    (hv : type.validate ctx s = .ok v) : v = .list ((words s).map .string) := by
  induction type generalizing s with
  | builtin b =>
    obtain rfl := Builtin.eq_of_derivesFrom_references b (hroot b rfl) h
    rw [validate, Builtin.validate] at hv
    obtain ⟨items, hitems, rfl⟩ := Builtin.of_read_listOf rfl hv
    rw [eq_map_of_mapM hitems fun w _ a => read_uncolonizedName, Spacing.words_normalize,
      List.map_map]
    rfl
  | derived d base ih =>
    have hread := (validate_eq_ok_iff.mp hv).1
    rw [isReferenceList] at h
    cases hd : d.variety with
    | restriction =>
      rw [hd] at h hread
      rw [← d.spacing.words_normalize s]
      exact ih hroot h hread
    | list =>
      rw [hd] at h hread
      obtain ⟨items, hitems, rfl⟩ := of_map_eq_ok hread
      rw [Spacing.words_normalize] at hitems
      rw [eq_map_of_mapM hitems fun w hw item =>
        validate_isReference hroot h (isWord_of_mem_words hw)]
  | orphan d => exact absurd h Bool.false_ne_true

theorem exists_root_of_isReference (h : type.isReference) :
    ∃ b, type.root? = some b ∧ b.derivesFrom "IDREF" := by
  induction type with
  | builtin b => exact ⟨b, rfl, h⟩
  | derived d base ih =>
    rw [isReference] at h
    cases hd : d.variety with
    | restriction => exact ih (by rwa [hd] at h)
    | list =>
      rw [hd] at h
      exact absurd h Bool.false_ne_true
  | orphan d => exact absurd h Bool.false_ne_true

/-- A list of references is derived from one of two built-in types. -/
theorem exists_root_of_isReferenceList (h : type.isReferenceList) :
    ∃ b, type.root? = some b ∧ (b.derivesFrom "IDREF" ∨ b.derivesFrom "IDREFS") := by
  induction type with
  | builtin b => exact ⟨b, rfl, .inr h⟩
  | derived d base ih =>
    rw [isReferenceList] at h
    cases hd : d.variety with
    | restriction => exact ih (by rwa [hd] at h)
    | list =>
      rw [hd] at h
      obtain ⟨b, hb, hone⟩ := exists_root_of_isReference h
      exact ⟨b, hb, .inl hone⟩
  | orphan d => exact absurd h Bool.false_ne_true

end SimpleType

/-- The role of a list of references. -/
theorem TypeTable.Rooted.idRole_of_isReferenceList {types : TypeTable} {n : Name}
    (hrooted : types.Rooted) (htype : types.find? n = some type) (hlist : type.isReferenceList) :
    types.idRole n = if types.derives n "IDREFS" then .references else .reference := by
  obtain ⟨b, hb, hor⟩ := type.exists_root_of_isReferenceList hlist
  have hroot : types.root? n = some b := by rw [root?, htype, Option.bind_some, hb]
  obtain ⟨-, hone, hmany⟩ := hrooted.idRole_eq n
  unfold derives at hone hmany ⊢
  rw [hroot] at hone hmany ⊢
  dsimp only [Option.any_some] at hone hmany ⊢
  have hno := Builtin.eq_of_derivesFrom_references b (hrooted n b hroot)
  by_cases hrefs : b.derivesFrom "IDREFS"
  · obtain rfl := hno hrefs
    rw [if_pos hrefs, hmany]
    exact ⟨by decide, hrefs⟩
  · rw [if_neg hrefs, hone]
    exact hor.resolve_right hrefs

/-! ## Attributes -/

namespace Identifiers

/-- The identifiers after references to some, made at an element. -/
def referAll (t : Identifiers) (ids : List String) (path : String) : Identifiers :=
  { t with references := t.references ++ ids.map (⟨·, path⟩) }

/-- No more references dangle if all those that are added are to declared identifiers. -/
theorem dangling_referAll (t : Identifiers) (ids : List String) (path : String) :
    (t.referAll ids path).dangling = t.dangling ↔ ∀ id ∈ ids, id ∈ t.declared := by
  have hsplit : (t.referAll ids path).dangling =
      t.dangling ++ (ids.map fun id => (⟨id, path⟩ : IdReference)).filter (!t.contains ·.id) :=
    List.filter_append ..
  rw [hsplit, List.append_right_eq_self, List.filter_eq_nil_iff, List.forall_mem_map]
  simp [contains]

end Identifiers

namespace AttributeDeclaration

variable {a : AttributeDeclaration} {types : TypeTable} {ids : Identifiers} {path value : String}
  {kept? : Option Identifiers}

/-- What an attribute with a list of references is noted to refer to. -/
def noted (a : AttributeDeclaration) (types : TypeTable) (type : SimpleType) (value : String) :
    List String :=
  if types.derives a.type.typeName "IDREFS" then words value else [type.spacing.normalize value]

theorem check_of_accepted? {literal treated : String}
    (h : a.accepted? types ctx literal = some treated) :
    a.type.check types ctx literal = .ok treated := by
  unfold accepted? at h
  cases hcheck : a.type.check types ctx literal with
  | error reason =>
    rw [hcheck] at h
    exact nomatch h
  | ok treated' =>
    rw [hcheck] at h
    dsimp only at h
    split at h
    · exact nomatch h
    · rw [Option.some.inj h]

/-- The literal of a sound attribute has a value. -/
theorem of_accepted? {treated : String} (htype : types.find? a.type.typeName = some type)
    (h : a.accepted? types ctx value = some treated) :
    type.spacing.normalize value = treated ∧ ∃ v, type.validate ctx value = .ok v := by
  have hcheck := check_of_accepted? h
  obtain ⟨type', htype', htreated⟩ := AttributeType.check_eq_ok hcheck
  obtain rfl := Option.some.inj (htype.symm.trans htype')
  rw [AttributeType.check, htype] at hcheck
  obtain ⟨v, hv, -⟩ := of_bind_eq_ok hcheck
  exact ⟨htreated, v, of_mapError_eq_ok hv⟩

theorem checkValue_of_isReferenceList (hrooted : types.Rooted)
    (htype : types.find? a.type.typeName = some type) (hlist : type.isReferenceList)
    (h : a.checkValue types ctx (some ids) path value = .ok kept?) :
    type.validate ctx value = .ok (.list ((words value).map .string)) ∧
      kept? = some (ids.referAll (a.noted types type value) path) := by
  have hroot : type.IsRooted := fun b hb => hrooted a.type.typeName b (by
    rw [TypeTable.root?, htype, Option.bind_some, hb])
  cases haccepted : a.accepted? types ctx value with
  | none =>
    obtain ⟨cause, -, herror⟩ := a.checkValue_of_none path haccepted
    rw [herror] at h
    exact nomatch h
  | some treated =>
    obtain ⟨rfl, v, hv⟩ := of_accepted? htype haccepted
    refine ⟨type.validate_isReferenceList hroot hlist hv ▸ hv, ?_⟩
    rw [checkValue_of_some haccepted, hrooted.idRole_of_isReferenceList htype hlist] at h
    dsimp only at h
    unfold noted
    split at h
    · rename_i hrefs
      rw [if_pos hrefs, ← type.spacing.words_normalize value]
      rw [Identifiers.enter, Identifiers.foldl_refer] at h
      exact (Except.ok.inj h).symm
    · rename_i hrefs
      rw [if_neg hrefs]
      exact (Except.ok.inj h).symm

/-- **References in lists.** An attribute with a list of references is noted with one reference for
each item of its value if its type is derived from the built-in type of such lists, and otherwise
only if the literal is itself the one item. Where all items are declared, it adds dangling
references unless its type is so derived or the whole literal is declared, too. -/
theorem checkValue_listReferences {draft : GrammarDraft} {limits : Limits} {g : Grammar}
    (hg : draft.compile limits = .ok g) (htype : g.types.find? a.type.typeName = some type)
    (hlist : type.isReferenceList)
    (h : a.checkValue g.types ctx (some ids) path value = .ok kept?) :
    ∃ items, type.validate ctx value = .ok (.list items) ∧
      kept? = some (ids.referAll (a.noted g.types type value) path) ∧
      (a.noted g.types type value = items.map Value.text ↔
        g.types.derives a.type.typeName "IDREFS" ∨
          items.map Value.text = [type.spacing.normalize value]) ∧
      ∀ declared, (∀ item ∈ items, item.text ∈ declared) →
        (({ ids.referAll (a.noted g.types type value) path with declared }).dangling =
            ({ ids with declared }).dangling ↔
          g.types.derives a.type.typeName "IDREFS" ∨ type.spacing.normalize value ∈ declared) := by
  obtain ⟨hvalue, hkept⟩ := checkValue_of_isReferenceList
    (GrammarDraft.rooted_of_compile hg) htype hlist h
  have htext (w : String) : (Value.string w).text = w := by rw [Value.string, Value.text, Atom.text]
  have htexts : ((words value).map Value.string).map Value.text = words value := by
    rw [List.map_map]
    exact List.map_id'' htext _
  refine ⟨_, hvalue, hkept, ?_, fun declared hdeclared => ?_⟩
  · rw [htexts, noted]
    split
    · rename_i hrefs
      simp [hrefs]
    · rename_i hrefs
      simp [hrefs, eq_comm]
  · have hwords : ∀ w ∈ words value, w ∈ declared := fun w hw =>
      htext w ▸ hdeclared _ (List.mem_map_of_mem hw)
    refine (Identifiers.dangling_referAll { ids with declared } _ path).trans ?_
    rw [noted]
    split
    · rename_i hrefs
      simpa [hrefs] using hwords
    · rename_i hrefs
      simp [hrefs]

/-- A part with links to others, the type of which is a list over the type of references. -/
def linkedPart : GrammarDraft where
  description := .schema none
  types := [
    { name := .unqualified "refs", base := .qualified schemaSpace "IDREF", variety := .list }]
  elements := [
    { name := .unqualified "part"
      content := .empty
      attributes := [{ name := .unqualified "links", type := .simple (.unqualified "refs") }] }]

/-- The links. -/
def links : AttributeDeclaration :=
  ⟨.unqualified "links", .simple (.unqualified "refs"), .implied, 0⟩

/-- Links to two declared parts pass, and are noted as one reference. -/
theorem checkValue_links : ∃ g type, linkedPart.compile {} = .ok g ∧ g.attributes = #[links] ∧
    g.types.find? links.type.typeName = some type ∧ type.isReferenceList ∧
    type.validate {} "x y" = .ok (.list [.string "x", .string "y"]) ∧
    links.checkValue g.types {} (some ⟨["x", "y"], []⟩) "/part" "x y" =
      .ok (some ⟨["x", "y"], [⟨"x y", "/part"⟩]⟩) := by
  have hall : (linkedPart.compile {}).toOption.map (fun g =>
      (g.attributes, (g.types.find? links.type.typeName).map fun type =>
        (type.isReferenceList, (type.validate {} "x y").toOption),
        (links.checkValue g.types {} (some ⟨["x", "y"], []⟩) "/part" "x y").toOption)) =
      some (#[links], some (true, some (.list [.string "x", .string "y"])),
        some (some ⟨["x", "y"], [⟨"x y", "/part"⟩]⟩)) := by
    decide +kernel
  cases hg : linkedPart.compile {} with
  | error f => rw [hg] at hall; exact nomatch hall
  | ok g =>
    rw [hg] at hall
    simp only [Except.toOption, Option.map_some, Option.some.injEq, Prod.mk.injEq,
      Option.map_eq_some_iff] at hall
    obtain ⟨hattributes, ⟨type, htype, hlist, hvalue⟩, hcheck⟩ := hall
    exact ⟨g, type, rfl, hattributes, htype, hlist, eq_ok_of_toOption hvalue,
      eq_ok_of_toOption hcheck⟩

theorem listReferences_links : ∃ g type, linkedPart.compile {} = .ok g ∧
    g.types.find? links.type.typeName = some type ∧
    ∃ items, type.validate {} "x y" = .ok (.list items) ∧
      (links.noted g.types type "x y" = items.map Value.text ↔
        g.types.derives links.type.typeName "IDREFS" ∨
          items.map Value.text = [type.spacing.normalize "x y"]) := by
  obtain ⟨g, type, hg, -, htype, hlist, -, hcheck⟩ := checkValue_links
  obtain ⟨items, hvalue, -, hnoted, -⟩ := checkValue_listReferences hg htype hlist hcheck
  exact ⟨g, type, hg, htype, items, hvalue, hnoted⟩

/-- A list with two items makes one reference, which dangles although both items are declared. -/
theorem exists_list_dangling : ∃ g type items kept, linkedPart.compile {} = .ok g ∧
    links ∈ g.attributes ∧ g.types.find? links.type.typeName = some type ∧ type.isReferenceList ∧
    type.validate {} "x y" = .ok (.list items) ∧
    links.checkValue g.types {} (some ⟨["x", "y"], []⟩) "/part" "x y" = .ok (some kept) ∧
    (∀ item ∈ items, item.text ∈ kept.declared) ∧
    kept.references.map (·.id) ≠ items.map Value.text ∧ kept.dangling = [⟨"x y", "/part"⟩] := by
  obtain ⟨g, type, hg, hattributes, htype, hlist, hvalue, hcheck⟩ := checkValue_links
  exact ⟨g, type, _, _, hg, by simp [hattributes], htype, hlist, hvalue, hcheck, by decide,
    by decide, by decide⟩

end AttributeDeclaration

end MarkupGrammar
