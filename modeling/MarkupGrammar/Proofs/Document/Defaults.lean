import MarkupGrammar.Proofs.Document.Identifiers
import Mathlib.Data.List.Nodup

/-! # Defaults written out

Attributes that are absent from a start tag but have a default or fixed value count with this value.
A document with these attributes written out (`Tree.withDefaults`) goes through the same passages,
with more attributes in the start tags. Identity constraints see no difference; but values that are
written out are checked, and declare identifiers and refer to them, which absent ones do not. The
reports are the same if and only if this makes no difference (`validate_withDefaults`). -/

namespace MarkupGrammar

variable {g : Grammar} {ctx : ValueContext} {e : Placed} {d : ElementDeclaration}

/-! ## Documents with defaults -/

/-- The declared attributes that are absent from a start tag. -/
def Grammar.missing (g : Grammar) (d : ElementDeclaration) (as : List Attribute) :
    List AttributeDeclaration :=
  ((g.attributesOf d).map (·.2)).filter fun a => !as.any (·.name == a.name)

/-- The attribute with the value that counts where it is absent. -/
def AttributeDeclaration.default? (a : AttributeDeclaration) : Option Attribute :=
  a.presence.value?.map (⟨a.name, ·⟩)

/-- The attributes that are absent from the start tag of the element, with the values that count. -/
def Placed.absentAttributes (g : Grammar) (e : Placed) (as : List Attribute) : List Attribute :=
  match e.declaration? g with
  | some d => (g.missing d as).filterMap (·.default?)
  | none => []

/-- Some content of an element, which comes after children with the given names, with the attributes
written out that are absent. -/
def Forest.withDefaults (g : Grammar) (e : Placed) (names : List Name) :
    Forest DocumentTag → Forest DocumentTag
  | nil => nil
  | piece s rest => piece s (rest.withDefaults g e names)
  | element l inner rest =>
    let child := (e.child g names l.name).1
    element ⟨l.name, l.attributes ++ child.absentAttributes g l.attributes⟩
      (inner.withDefaults g child []) (rest.withDefaults g e (names ++ [l.name]))

/-- A document with the attributes written out that are absent, at the end of the start tags. -/
def Tree.withDefaults (g : Grammar) (checksRoot : Bool) (t : Tree DocumentTag) : Tree DocumentTag :=
  let root := (Placed.root g checksRoot t.label.name).1
  ⟨⟨t.label.name, t.label.attributes ++ root.absentAttributes g t.label.attributes⟩,
    t.inner.withDefaults g root []⟩

/-- The passage with the attributes written out that are absent. -/
def Passage.withDefaults (g : Grammar) : Passage → Passage
  | .start e as reported => .start e (as ++ e.absentAttributes g as) reported
  | .text s reported => .text s reported
  | .stop reported => .stop reported

namespace Forest

theorem labels_withDefaults (f : Forest DocumentTag) (e : Placed) (names : List Name) :
    (f.withDefaults g e names).labels.map (·.name) = f.labels.map (·.name) := by
  induction f generalizing names with
  | nil => rfl
  | piece s rest ih => exact ih names
  | element l inner rest _ ih => exact congrArg (l.name :: ·) (ih (names ++ [l.name]))

theorem pieces_withDefaults (f : Forest DocumentTag) (e : Placed) (names : List Name) :
    (f.withDefaults g e names).pieces = f.pieces := by
  induction f generalizing names with
  | nil => rfl
  | piece s rest ih => exact congrArg (s :: ·) (ih names)
  | element l inner rest _ ih => exact ih (names ++ [l.name])

theorem height_withDefaults (f : Forest DocumentTag) (e : Placed) (names : List Name) :
    (f.withDefaults g e names).height = f.height := by
  induction f generalizing e names with
  | nil => rfl
  | piece s rest ih => exact ih e names
  | element l inner rest ihi ihr =>
    rw [withDefaults, height, ihi, ihr, height]

/-- The passages are the same but for the attributes. -/
theorem passages_withDefaults (f : Forest DocumentTag) (e : Placed) (names : List Name)
    (texts : List String) : (f.withDefaults g e names).passages g ctx e names texts =
      (f.passages g ctx e names texts).map (Passage.withDefaults g) := by
  induction f generalizing e names texts with
  | nil => rfl
  | piece s rest ih => exact congrArg (_ :: ·) (ih e names (texts ++ [s]))
  | element l inner rest ihi ihr =>
    rw [withDefaults, passages, passages]
    dsimp only
    rw [ihi, ihr, labels_withDefaults, pieces_withDefaults, List.map_cons, List.map_append,
      List.map_cons]
    rfl

end Forest

namespace Tree

theorem height_withDefaults (checksRoot : Bool) (t : Tree DocumentTag) :
    (t.withDefaults g checksRoot).height = t.height :=
  congrArg (· + 1) (t.inner.height_withDefaults _ [])

theorem passages_withDefaults (checksRoot : Bool) (t : Tree DocumentTag) :
    (t.withDefaults g checksRoot).passages g ctx checksRoot =
      (t.passages g ctx checksRoot).map (Passage.withDefaults g) := by
  rw [withDefaults, passages, passages]
  dsimp only
  rw [Forest.passages_withDefaults, Forest.labels_withDefaults, Forest.pieces_withDefaults,
    List.map_cons, List.map_append, List.map_singleton]
  rfl

end Tree

/-! ## Attributes with defaults -/

namespace AttributeDeclaration

variable {a : AttributeDeclaration} {l : Attribute}

theorem name_of_default (h : a.default? = some l) : l.name = a.name := by
  obtain ⟨value, -, rfl⟩ := Option.map_eq_some_iff.mp h
  rfl

end AttributeDeclaration

namespace Grammar

variable {as : List Attribute} {a : AttributeDeclaration} {ms : List AttributeDeclaration}

/-- No attribute with a value that counts where it is absent is addressed to the reader or the
validator. -/
def DefaultsUnreserved (g : Grammar) : Prop :=
  ∀ d ∈ g.elements, ∀ a ∈ (g.attributesOf d).map (·.2), ∀ l ∈ a.default?, l.isReserved = false

instance (g : Grammar) : Decidable g.DefaultsUnreserved :=
  inferInstanceAs (Decidable (∀ d ∈ g.elements, ∀ a ∈ (g.attributesOf d).map (·.2),
    ∀ l ∈ a.default?, l.isReserved = false))

/-- An attribute is found by its name if names are different. -/
theorem findAttribute_of_mem (hnames : ((g.attributesOf d).map (·.2.name)).Nodup)
    (ha : a ∈ (g.attributesOf d).map (·.2)) : g.findAttribute d a.name = some a := by
  obtain ⟨entry, hentry, rfl⟩ := List.mem_map.mp ha
  unfold findAttribute
  generalize hf : List.find? _ (g.attributesOf d) = found?
  cases found? with
  | none => exact absurd (beq_self_eq_true _) (List.find?_eq_none.mp hf entry hentry)
  | some found =>
    have hname : found.2.name = entry.2.name := by simpa using List.find?_some hf
    rw [List.inj_on_of_nodup_map hnames (List.mem_of_find?_eq_some hf) hentry hname]
    rfl

theorem mem_of_missing (ha : a ∈ g.missing d as) : a ∈ (g.attributesOf d).map (·.2) :=
  List.mem_of_mem_filter ha

/-- Once they are written out, only attributes without a default are absent. -/
theorem missing_append (hnames : ((g.attributesOf d).map (·.2.name)).Nodup) (as : List Attribute) :
    g.missing d (as ++ (g.missing d as).filterMap (·.default?)) =
      (g.missing d as).filter (·.default?.isNone) := by
  -- as names are different, a name is written out for the attributes with a default only
  have hwritten : ∀ a ∈ g.missing d as,
      ((g.missing d as).filterMap (·.default?)).any (·.name == a.name) = a.default?.isSome := by
    intro a ha
    rw [Bool.eq_iff_iff, List.any_eq_true, Option.isSome_iff_exists]
    constructor
    · rintro ⟨l, hl, hname⟩
      obtain ⟨b, hb, hdefault⟩ := List.mem_filterMap.mp hl
      have hfound := findAttribute_of_mem hnames (mem_of_missing hb)
      rw [← AttributeDeclaration.name_of_default hdefault, eq_of_beq hname,
        findAttribute_of_mem hnames (mem_of_missing ha)] at hfound
      exact ⟨l, Option.some.inj hfound ▸ hdefault⟩
    · rintro ⟨l, hdefault⟩
      exact ⟨l, List.mem_filterMap.mpr ⟨a, ha, hdefault⟩,
        beq_iff_eq.mpr (AttributeDeclaration.name_of_default hdefault)⟩
  have hsplit : g.missing d (as ++ (g.missing d as).filterMap (·.default?)) =
      (g.missing d as).filter fun a =>
        !((g.missing d as).filterMap (·.default?)).any (·.name == a.name) := by
    conv_lhs => rw [missing]
    conv_rhs => rw [missing, List.filter_filter]
    simp only [List.any_append, Bool.not_or, Bool.and_comm]
    rfl
  rw [hsplit]
  refine List.filter_congr fun a ha => ?_
  rw [hwritten a ha]
  cases a.default? <;> rfl

/-- An attribute with a default counts with it where it is absent. -/
theorem checkAbsent_of_default {l : Attribute} (h : a.default? = some l) (path : String) :
    checkAbsent d path a = ([⟨l.name, l.value, some a.type.typeName, true⟩], []) := by
  obtain ⟨value, hvalue, rfl⟩ := Option.map_eq_some_iff.mp h
  unfold checkAbsent AttributeDeclaration.isRequired
  rw [hvalue]
  cases hp : a.presence with
  | required | implied => rw [hp] at hvalue; exact nomatch hvalue
  | fixed value | default value => rfl

/-- An attribute without a default does not count where it is absent. -/
theorem effective_checkAbsent (h : a.default? = none) (path : String) :
    (checkAbsent d path a).1 = [] := by
  unfold checkAbsent
  rw [Option.map_eq_none_iff.mp h]
  split <;> rfl

/-- Attributes that are written out count as the absent ones do. -/
theorem typed_defaults (hnames : ((g.attributesOf d).map (·.2.name)).Nodup)
    (hunreserved : ∀ a ∈ (g.attributesOf d).map (·.2), ∀ l ∈ a.default?, l.isReserved = false)
    (path : String) (hms : ∀ a ∈ ms, a ∈ (g.attributesOf d).map (·.2)) :
    ((ms.filterMap (·.default?)).flatMap (g.effectiveOf d)).map (·.typed) =
      (ms.flatMap fun a => (checkAbsent d path a).1).map (·.typed) := by
  induction ms with
  | nil => rfl
  | cons a ms ih =>
    obtain ⟨ha, hms⟩ := List.forall_mem_cons.mp hms
    rw [List.filterMap_cons, List.flatMap_cons, List.map_append, ← ih hms]
    cases hl : a.default? with
    | none => rw [effective_checkAbsent hl, List.map_nil, List.nil_append]
    | some l =>
      have hfound : g.findAttribute d l.name = some a := by
        rw [AttributeDeclaration.name_of_default hl, findAttribute_of_mem hnames ha]
      rw [checkAbsent_of_default hl, List.flatMap_cons, List.map_append, effectiveOf, hfound,
        hunreserved a ha l hl]
      rfl

theorem effective_checkPresent (path : String) (ids? : Option Identifiers) (as : List Attribute) :
    (g.checkPresent d ctx path ids? as).effective = as.flatMap (g.effectiveOf d) := by
  induction as generalizing ids? with
  | nil => rfl
  | cons a as ih =>
    rw [checkPresent, List.flatMap_cons]
    dsimp only
    rw [ih, effective_checkAttribute]

/-- The violations of absent attributes are those of absent attributes without a default. -/
theorem violations_checkAbsent (path : String) (ms : List AttributeDeclaration) :
    ((ms.filter (·.default?.isNone)).flatMap fun a => (checkAbsent d path a).2) =
      ms.flatMap fun a => (checkAbsent d path a).2 := by
  induction ms with
  | nil => rfl
  | cons a ms ih =>
    rw [List.filter_cons, List.flatMap_cons, ← ih]
    cases hl : a.default? with
    | none => rfl
    | some l =>
      rw [checkAbsent_of_default hl]
      rfl

/-- The attributes of an element, in terms of those that are absent. -/
theorem checkAttributes_eq (ids? : Option Identifiers) (path : String) (as : List Attribute) :
    g.checkAttributes d ctx ids? path as =
      ⟨as.flatMap (g.effectiveOf d) ++ (g.missing d as).flatMap fun a => (checkAbsent d path a).1,
        (g.checkPresent d ctx path ids? as).violations ++
          (g.missing d as).flatMap fun a => (checkAbsent d path a).2,
        (g.checkPresent d ctx path ids? as).ids?⟩ := by
  rw [checkAttributes, effective_checkPresent]
  simp only [List.flatMap_map]
  rfl

/-- **Attributes that are written out make no difference to how the attributes of an element
count**, and none to those that may not be absent. -/
theorem checkAttributes_append (ctx : ValueContext)
    (hnames : ((g.attributesOf d).map (·.2.name)).Nodup)
    (hunreserved : ∀ a ∈ (g.attributesOf d).map (·.2), ∀ l ∈ a.default?, l.isReserved = false)
    (ids? ids?' : Option Identifiers) (path : String) (as : List Attribute) :
    let written := as ++ (g.missing d as).filterMap (·.default?)
    (g.checkAttributes d ctx ids?' path written).effective.map (·.typed) =
        (g.checkAttributes d ctx ids? path as).effective.map (·.typed) ∧
      (g.checkAttributes d ctx ids?' path written).violations =
        (g.checkPresent d ctx path ids?' written).violations ++
          (g.missing d as).flatMap fun a => (checkAbsent d path a).2 := by
  intro written
  have hmissing : g.missing d written = (g.missing d as).filter (·.default?.isNone) :=
    missing_append hnames as
  have hdropped : ((g.missing d as).filter (·.default?.isNone)).flatMap
      (fun a => (checkAbsent d path a).1) = [] := by
    refine List.flatMap_eq_nil_iff.mpr fun a ha => effective_checkAbsent ?_ path
    obtain ⟨-, hnone⟩ := List.mem_filter.mp ha
    exact Option.isNone_iff_eq_none.mp hnone
  rw [checkAttributes_eq, checkAttributes_eq, hmissing]
  dsimp only
  refine ⟨?_, by rw [violations_checkAbsent]⟩
  rw [hdropped, List.append_nil, List.flatMap_append, List.map_append, List.map_append,
    typed_defaults hnames hunreserved path fun a => mem_of_missing]

end Grammar

theorem Placed.mem_of_declaration (hd : e.declaration? g = some d) : d ∈ g.elements := by
  obtain ⟨j, -, hj⟩ := Option.bind_eq_some_iff.mp hd
  exact Array.mem_of_getElem? hj

/-- Where the literals of absent attributes come from. -/
theorem Placed.mem_absentAttributes {as : List Attribute} {l : Attribute}
    (h : l ∈ e.absentAttributes g as) : ∃ d ∈ g.elements, e.declaration? g = some d ∧
      ∃ a ∈ (g.attributesOf d).map (·.2), a.default? = some l := by
  unfold absentAttributes at h
  cases hd : e.declaration? g with
  | none => rw [hd] at h; exact absurd h List.not_mem_nil
  | some d =>
    rw [hd] at h
    obtain ⟨a, ha, hl⟩ := List.mem_filterMap.mp h
    exact ⟨d, mem_of_declaration hd, rfl, a, Grammar.mem_of_missing ha, hl⟩

end MarkupGrammar
