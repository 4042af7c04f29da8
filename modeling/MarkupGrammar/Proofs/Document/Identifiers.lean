import MarkupGrammar.Proofs.Document.SoundAttribute

/-! # Identifiers of a document

What a validation has noted of the sound attributes so far (`Noted`): the identifiers that they
declare and the references that they make are kept, and identifiers that are declared again are
reported. Each passage adds the sound attributes of the element that it begins. So the report of a
document tells of each identifier that is declared again, and of each reference to an identifier
that is declared nowhere (`violations_of_identifiers`). -/

namespace MarkupGrammar

variable {g : Grammar} {types : TypeTable} {ctx : ValueContext} {e : Placed}
  {d : ElementDeclaration} {xs ys : List SoundAttribute} {t : Identifiers} {o : ValidationOptions}
  {v : Validation}

/-! ## Elements and where they are placed -/

/-- The elements of some content of an element, which comes after children with the given names, in
the order of their start tags and with what they are validated against. -/
def Forest.placed (g : Grammar) (e : Placed) (names : List Name) :
    Forest DocumentTag → List (Placed × List Attribute)
  | nil => []
  | piece _ rest => rest.placed g e names
  | element l inner rest =>
    let child := (e.child g names l.name).1
    (child, l.attributes) :: (inner.placed g child [] ++ rest.placed g e (names ++ [l.name]))

/-- The elements of a document, with what they are validated against. -/
def Tree.placed (g : Grammar) (checksRoot : Bool) (t : Tree DocumentTag) :
    List (Placed × List Attribute) :=
  let root := (Placed.root g checksRoot t.label.name).1
  (root, t.label.attributes) :: t.inner.placed g root []

/-- The sound attributes of a document, in document order. -/
def Tree.soundAttributes (g : Grammar) (ctx : ValueContext) (checksRoot : Bool)
    (t : Tree DocumentTag) : List SoundAttribute :=
  (t.placed g checksRoot).flatMap fun (e, as) => e.soundAttributes g ctx as

/-- The element that begins with the passage. -/
def Passage.begun? : Passage → Option (Placed × List Attribute)
  | .start e as _ => some (e, as)
  | .text _ _ | .stop _ => none

theorem Forest.begun_passages (ctx : ValueContext) (f : Forest DocumentTag) (names : List Name)
    (texts : List String) :
    (f.passages g ctx e names texts).filterMap Passage.begun? = f.placed g e names := by
  induction f generalizing e names texts with
  | nil => rfl
  | piece s rest ih => exact ih names (texts ++ [s])
  | element l inner rest ihi ihr =>
    have hinner := ihi (e := (e.child g names l.name).1) [] []
    have hrest := ihr (e := e) (names ++ [l.name]) texts
    rw [passages, placed, ← hinner, ← hrest]
    simp [Passage.begun?, List.filterMap_cons, List.filterMap_append]

theorem Tree.begun_passages (ctx : ValueContext) (checksRoot : Bool) (t : Tree DocumentTag) :
    (t.passages g ctx checksRoot).filterMap Passage.begun? = t.placed g checksRoot := by
  rw [passages, placed, ← t.inner.begun_passages ctx [] []]
  simp [Passage.begun?, List.filterMap_cons, List.filterMap_append]

/-! ## Identifiers so far -/

/-- The identifiers and references are those of the attributes. -/
structure Identifiers.Holds (types : TypeTable) (xs : List SoundAttribute) (t : Identifiers) :
    Prop where
  contains_iff (id : String) : t.contains id ↔ id ∈ SoundAttribute.identifiers types xs
  references_eq : t.references = xs.flatMap fun x => (x.references types).map (⟨·, x.path⟩)

namespace Identifiers

theorem holds_nil (types : TypeTable) : Holds types [] {} :=
  ⟨fun id => by simp [contains, SoundAttribute.identifiers], rfl⟩

/-- References are added one after the other. -/
theorem foldl_refer (t : Identifiers) (ids : List String) (path : String) :
    ids.foldl (fun t id => t.refer id path) t =
      { t with references := t.references ++ ids.map (⟨·, path⟩) } := by
  induction ids generalizing t with
  | nil => simp
  | cons id ids ih =>
    rw [List.foldl_cons, ih, refer]
    simp

theorem contains_declare (t : Identifiers) (new id : String) :
    ({ t with declared := new :: t.declared } : Identifiers).contains id ↔
      id = new ∨ t.contains id := by
  simp [contains]

end Identifiers

/-- What an attribute declares and refers to, by the role of its type. -/
theorem SoundAttribute.role_cases (h : types.Rooted) (x : SoundAttribute) :
    (types.idRole x.type = .none ∧ x.identifier? types = none ∧ x.references types = []) ∨
    (types.idRole x.type = .identifier ∧ x.identifier? types = some x.value ∧
      x.references types = []) ∨
    (types.idRole x.type = .reference ∧ x.identifier? types = none ∧
      x.references types = [x.value]) ∨
    (types.idRole x.type = .references ∧ x.identifier? types = none ∧
      x.references types = Text.words x.value) := by
  obtain ⟨hid, hone, hmany⟩ := h.idRole_eq x.type
  unfold identifier? references
  cases hrole : types.idRole x.type <;> simp_all

/-- An attribute is reported if it declares an identifier that is declared; otherwise it is noted
with the identifier that it declares and its references. -/
theorem SoundAttribute.entered_cases (hroot : types.Rooted) (t : Identifiers)
    (x : SoundAttribute) :
    (∃ id, x.identifier? types = some id ∧ x.references types = [] ∧ t.contains id ∧
      x.entered types (some t) =
        (some t, [⟨.duplicateId id, some x.name, some id, some x.path⟩])) ∨
    (∀ id, x.identifier? types = some id → ¬ t.contains id) ∧
      ∃ next : Identifiers, x.entered types (some t) = (some next, []) ∧
        (∀ id, next.contains id ↔ t.contains id ∨ x.identifier? types = some id) ∧
        next.references = t.references ++ (x.references types).map (⟨·, x.path⟩) := by
  unfold entered Identifiers.enter
  rcases x.role_cases hroot with ⟨hrole, hid, hrefs⟩ | ⟨hrole, hid, hrefs⟩ |
    ⟨hrole, hid, hrefs⟩ | ⟨hrole, hid, hrefs⟩ <;> rw [hrole, hid, hrefs]
  · exact .inr ⟨by simp, t, rfl, by simp, by simp⟩
  · dsimp only
    unfold Identifiers.declare
    by_cases hin : t.contains x.value
    · exact .inl ⟨x.value, rfl, rfl, hin, by rw [if_pos hin]⟩
    · refine .inr ⟨fun id heq => Option.some.inj heq ▸ hin, _, by rw [if_neg hin], fun id => ?_, ?_⟩
      · rw [Identifiers.contains_declare, or_comm, Option.some.injEq, @eq_comm _ x.value]
      · rw [List.map_nil, List.append_nil]
  · exact .inr ⟨by simp, _, rfl, by simp [Identifiers.refer, Identifiers.contains], rfl⟩
  · dsimp only
    rw [Identifiers.foldl_refer]
    exact .inr ⟨by simp, _, rfl, by simp [Identifiers.contains], rfl⟩

/-- **A sound attribute is noted**, and reported if it declares an identifier again. -/
theorem Identifiers.Holds.entered (h : t.Holds types xs) (hroot : types.Rooted)
    (x : SoundAttribute) : ∃ t' : Identifiers,
      x.entered types (some t) = (some t', x.duplicate types xs) ∧ t'.Holds types (xs ++ [x]) := by
  have hidentifiers : SoundAttribute.identifiers types (xs ++ [x]) =
      SoundAttribute.identifiers types xs ++ (x.identifier? types).toList := by
    rw [SoundAttribute.identifiers_append]
    cases hx : x.identifier? types <;> simp [SoundAttribute.identifiers, hx]
  have hreferences : (xs ++ [x]).flatMap (fun x => (x.references types).map (⟨·, x.path⟩)) =
      t.references ++ (x.references types).map (⟨·, x.path⟩) := by
    rw [List.flatMap_append, ← h.references_eq, List.flatMap_singleton]
  unfold SoundAttribute.duplicate
  rcases x.entered_cases hroot t with ⟨id, hid, hrefs, hin, hx⟩ | ⟨hnew, next, hx, hcontains, hrefs⟩
  -- an identifier that is known is in the list twice from now on
  · have hknown := (h.contains_iff id).mp hin
    rw [hx, hid]
    dsimp only
    rw [if_pos hknown]
    refine ⟨t, rfl, fun id' => ?_, by rw [hreferences, hrefs, List.map_nil, List.append_nil]⟩
    rw [hidentifiers, hid, h.contains_iff, List.mem_append, Option.toList_some,
      List.mem_singleton]
    exact ⟨.inl, fun hor => hor.elim (fun hid' => hid') fun heq => heq ▸ hknown⟩
  · refine ⟨next, ?_, fun id => ?_, by rw [hreferences, hrefs]⟩
    · rw [hx]
      cases hid : x.identifier? types with
      | none => rfl
      | some id =>
        dsimp only
        rw [if_neg fun hknown => hnew id hid ((h.contains_iff id).mpr hknown)]
    · rw [hcontains, h.contains_iff, hidentifiers, List.mem_append, Option.mem_toList]

/-! ## Attributes of an element -/

namespace Grammar

/-- The attributes of a start tag are noted in order. -/
theorem checkPresent_holds (ctx : ValueContext) (hroot : g.types.Rooted)
    (hd : e.declaration? g = some d)
    (h : t.Holds g.types xs) (as : List Attribute) : ∃ t' : Identifiers,
      (g.checkPresent d ctx e.path (some t) as).ids? = some t' ∧
      t'.Holds g.types (xs ++ e.soundAttributes g ctx as) ∧
      violationsOf .duplicateId (g.checkPresent d ctx e.path (some t) as).violations =
        SoundAttribute.duplicates g.types xs (e.soundAttributes g ctx as) ∧
      violationsOf .danglingIdref (g.checkPresent d ctx e.path (some t) as).violations = [] := by
  induction as generalizing t xs with
  | nil => exact ⟨t, rfl, by simpa [Placed.soundAttributes] using h, rfl, rfl⟩
  | cons a as ih =>
    have hsplit : e.soundAttributes g ctx (a :: as) =
        e.soundAttributes g ctx [a] ++ e.soundAttributes g ctx as :=
      Placed.soundAttributes_append [a] as
    rw [hsplit, checkPresent]
    dsimp only
    rcases checkAttribute_cases ctx hd a with
      ⟨hnone, vs, hplain, -, hcheck⟩ | ⟨x, -, hsome, hcheck⟩
    · obtain ⟨t', ht', hholds, hdups, hdangs⟩ := ih h
      rw [hnone, hcheck, List.nil_append, violationsOf_append, violationsOf_append,
        hplain.duplicates_eq_nil, hplain.danglings_eq_nil]
      exact ⟨t', ht', hholds, hdups, hdangs⟩
    · obtain ⟨t₁, hentered, h₁⟩ := h.entered hroot x
      obtain ⟨t', ht', hholds, hdups, hdangs⟩ := ih h₁
      obtain ⟨hdup, hdang⟩ := SoundAttribute.violationsOf_duplicate g.types xs x
      rw [hsome, hcheck, hentered, violationsOf_append, violationsOf_append, hdup, hdang, hdups,
        hdangs, ← List.append_assoc]
      exact ⟨t', ht', hholds, rfl, rfl⟩

theorem plain_checkAbsent (path : String) (as : List AttributeDeclaration) :
    Plain ((as.map (checkAbsent d path)).flatMap (·.2)) :=
  (foundBy_checkAbsent d path as).plain (by decide)

end Grammar

/-! ## Passages -/

namespace Validation

/-- What a validation has noted of the sound attributes so far. -/
structure Noted (g : Grammar) (xs : List SoundAttribute) (v : Validation) : Prop where
  holds : v.identifiers.Holds g.types xs
  duplicates_eq : violationsOf .duplicateId v.violations = SoundAttribute.duplicates g.types [] xs
  danglings_eq : violationsOf .danglingIdref v.violations = []

/-- The sound attributes of the element that begins with a passage. -/
def noting (g : Grammar) (ctx : ValueContext) (p : Passage) : List SoundAttribute :=
  match p.begun? with
  | some (e, as) => e.soundAttributes g ctx as
  | none => []

/-- Plain violations make no difference. -/
theorem Noted.of_plain {v' : Validation} (h : Noted g xs v) {vs : List Violation} (hvs : Plain vs)
    (hids : v'.identifiers = v.identifiers) (hviolations : v'.violations = v.violations ++ vs) :
    Noted g xs v' := by
  refine ⟨hids ▸ h.holds, ?_, ?_⟩
  · rw [hviolations, violationsOf_append, hvs.duplicates_eq_nil, List.append_nil, h.duplicates_eq]
  · rw [hviolations, violationsOf_append, hvs.danglings_eq_nil, List.append_nil, h.danglings_eq]

theorem checkAttributes_of_some (hd : e.declaration? g = some d) (path : String)
    (as : List Attribute) : v.checkAttributes g o e.mode path as = g.checkAttributes d o.context
      (if o.checksIdentifiers then some v.identifiers else none) path as := by
  unfold Placed.declaration? at hd
  unfold checkAttributes
  rw [hd]

theorem checkAttributes_of_none (hd : e.declaration? g = none) (path : String)
    (as : List Attribute) : v.checkAttributes g o e.mode path as =
      { effective := undeclaredAttributes as
        ids? := if o.checksIdentifiers then some v.identifiers else none } := by
  unfold Placed.declaration? at hd
  unfold checkAttributes
  rw [hd]

theorem soundAttributes_of_none (hd : e.declaration? g = none) (as : List Attribute) :
    e.soundAttributes g ctx as = [] := by
  unfold Placed.soundAttributes
  refine List.filterMap_eq_nil_iff.mpr fun a _ => ?_
  rw [Placed.soundAttribute?, hd]
  rfl

/-- The attributes of an element are noted. -/
theorem checkAttributes_holds (hroot : g.types.Rooted) (ho : o.checksIdentifiers = true)
    (h : v.identifiers.Holds g.types xs) (e : Placed) (as : List Attribute) : ∃ t' : Identifiers,
      (v.checkAttributes g o e.mode e.path as).ids? = some t' ∧
      t'.Holds g.types (xs ++ e.soundAttributes g o.context as) ∧
      violationsOf .duplicateId (v.checkAttributes g o e.mode e.path as).violations =
        SoundAttribute.duplicates g.types xs (e.soundAttributes g o.context as) ∧
      violationsOf .danglingIdref (v.checkAttributes g o e.mode e.path as).violations = [] := by
  cases hd : e.declaration? g with
  | none =>
    rw [checkAttributes_of_none hd, soundAttributes_of_none hd, if_pos ho, List.append_nil]
    exact ⟨v.identifiers, rfl, h, rfl, rfl⟩
  | some d =>
    obtain ⟨t', ht', hholds, hdups, hdangs⟩ :=
      Grammar.checkPresent_holds o.context hroot hd h as
    have habsent := Grammar.plain_checkAbsent (d := d) e.path
      (((g.attributesOf d).map (·.2)).filter fun a => !as.any (·.name == a.name))
    rw [checkAttributes_of_some hd, if_pos ho, Grammar.checkAttributes]
    dsimp only
    rw [violationsOf_append, violationsOf_append, habsent.duplicates_eq_nil,
      habsent.danglings_eq_nil, List.append_nil, List.append_nil]
    exact ⟨t', ht', hholds, hdups, hdangs⟩

theorem plain_startKeys (k : PooledKeys) (e : Placed) (attributes : List TypedAttribute) :
    Plain (startKeys g o k e attributes).2 := by
  unfold startKeys
  split
  · exact k.plain_start _ _ e.path
  · exact plain_nil

theorem plain_stopKeys (k : PooledKeys) : Plain (stopKeys g o k).2 := by
  unfold stopKeys
  split
  · exact k.keys.plain_stop
  · exact plain_nil

/-- **A passage notes the sound attributes of the element that it begins.** -/
theorem Noted.pass (hroot : g.types.Rooted) (ho : o.checksIdentifiers = true) (h : Noted g xs v)
    {p : Passage} (hp : p.IsPlain) : Noted g (xs ++ noting g o.context p) (v.pass g o p) := by
  cases p with
  | start e as reported =>
    obtain ⟨t', ht', hholds, hdups, hdangs⟩ := checkAttributes_holds hroot ho h.holds e as
    have hreported : Plain reported := hp
    have hkeys := plain_startKeys (g := g) (o := o) v.keys e
      ((v.checkAttributes g o e.mode e.path as).effective.map (·.typed))
    have hviolations : (v.pass g o (.start e as reported)).violations = v.violations ++
        (reported ++ (v.checkAttributes g o e.mode e.path as).violations ++ (startKeys g o v.keys e
          ((v.checkAttributes g o e.mode e.path as).effective.map (·.typed))).2) := rfl
    refine ⟨?_, ?_, ?_⟩
    · change ((v.checkAttributes g o e.mode e.path as).ids?.getD v.identifiers).Holds _ _
      rw [ht']
      exact hholds
    · rw [hviolations, violationsOf_append, violationsOf_append, violationsOf_append,
        hreported.duplicates_eq_nil, hkeys.duplicates_eq_nil, h.duplicates_eq, hdups,
        SoundAttribute.duplicates_append, List.append_nil, List.nil_append, List.nil_append]
      rfl
    · rw [hviolations, violationsOf_append, violationsOf_append, violationsOf_append,
        hreported.danglings_eq_nil, hkeys.danglings_eq_nil, h.danglings_eq, hdangs]
      rfl
  | text s reported =>
    rw [noting, Passage.begun?, List.append_nil]
    exact h.of_plain hp rfl rfl
  | stop reported =>
    rw [noting, Passage.begun?, List.append_nil]
    exact h.of_plain (Plain.append hp (plain_stopKeys v.keys)) rfl rfl

theorem Noted.foldl_pass (hroot : g.types.Rooted) (ho : o.checksIdentifiers = true)
    (h : Noted g xs v) {ps : List Passage} (hps : ∀ p ∈ ps, p.IsPlain) :
    Noted g (xs ++ ps.flatMap (noting g o.context)) (ps.foldl (Validation.pass g o) v) := by
  induction ps generalizing xs v with
  | nil => simpa using h
  | cons p ps ih =>
    obtain ⟨hp, hps⟩ := List.forall_mem_cons.mp hps
    rw [List.flatMap_cons, ← List.append_assoc]
    exact ih (h.pass hroot ho hp) hps

theorem flatMap_noting (checksRoot : Bool) (t : Tree DocumentTag) :
    (t.passages g ctx checksRoot).flatMap (noting g ctx) = t.soundAttributes g ctx checksRoot := by
  rw [Tree.soundAttributes, ← t.begun_passages ctx]
  induction t.passages g ctx checksRoot with
  | nil => rfl
  | cons p ps ih =>
    cases p with
    | start e as reported =>
      rw [List.flatMap_cons, ih]
      rfl
    | text s reported => exact ih
    | stop reported => exact ih

/-- A validation after the passages of a document. -/
def passed (g : Grammar) (o : ValidationOptions) (v : Validation) (t : Tree DocumentTag) :
    Validation :=
  (t.passages g o.context o.checksRoot).foldl (pass g o) v.restart

/-- After the passages of a document its sound attributes are noted. -/
theorem noted_passed (hroot : g.types.Rooted) (ho : o.checksIdentifiers = true) (v : Validation)
    (t : Tree DocumentTag) :
    Noted g (t.soundAttributes g o.context o.checksRoot) (passed g o v t) := by
  have hstart : Noted g [] v.restart := ⟨Identifiers.holds_nil g.types, rfl, rfl⟩
  have hnoted := hstart.foldl_pass hroot ho
    (t.plain_passages (g := g) o.context o.checksRoot)
  rwa [flatMap_noting, List.nil_append] at hnoted

/-- The references that are not found are those to identifiers that no attribute declares. -/
theorem dangling_eq (h : t.Holds types xs) :
    t.dangling.map danglingViolation = SoundAttribute.danglings types xs := by
  have hnot (id : String) :
      (!t.contains id) = decide (id ∉ SoundAttribute.identifiers types xs) := by
    rw [Bool.eq_iff_iff]
    simp [← h.contains_iff id]
  unfold Identifiers.dangling SoundAttribute.danglings
  rw [h.references_eq, List.filter_flatMap, List.map_flatMap]
  refine List.flatMap_congr fun x _ => ?_
  rw [List.filter_map, List.map_map]
  simp only [Function.comp_def, hnot]

/-- What is reported of the identity constraints at the end of a document. -/
def finishKeys (g : Grammar) (o : ValidationOptions) (k : PooledKeys) : List Violation :=
  if o.checksConstraints then (k.finish g).2 else []

theorem plain_finishKeys (k : PooledKeys) : Plain (finishKeys g o k) := by
  unfold finishKeys
  split
  · exact k.keys.plain_finish
  · exact plain_nil

/-- The report of a document that does not nest too deeply. -/
theorem validate_passed (hg : g.Closed) (t : Tree DocumentTag)
    (hdepth : t.height ≤ o.limits.maxDepth) (v : Validation) :
    (v.validate g o t.documentEvents).1 = .ok ⟨(passed g o v t).violations ++
      finishKeys g o (passed g o v t).keys ++ if o.checksIdentifiers then
        (passed g o v t).identifiers.dangling.map danglingViolation else []⟩ := by
  have hclosed : ¬ (passed g o v t).depth > 0 := by
    rw [depth, passed, walk_foldl_pass]
    exact Nat.lt_irrefl 0
  rw [validate_eq hg t hdepth]
  change ((passed g o v t).finish g o).1 = _
  unfold finish finishKeys
  rw [if_neg hclosed]
  cases o.checksConstraints <;> rfl

theorem violationsOf_danglings (types : TypeTable) (xs : List SoundAttribute) :
    violationsOf .duplicateId (SoundAttribute.danglings types xs) = [] ∧
      violationsOf .danglingIdref (SoundAttribute.danglings types xs) =
        SoundAttribute.danglings types xs := by
  have hkind : ∀ v ∈ SoundAttribute.danglings types xs, v.kind = .danglingIdref := by
    intro v hv
    obtain ⟨x, -, hv⟩ := List.mem_flatMap.mp hv
    obtain ⟨id, -, rfl⟩ := List.mem_map.mp hv
    rfl
  refine ⟨List.filter_eq_nil_iff.mpr fun v hv => ?_, List.filter_eq_self.mpr fun v hv => ?_⟩
  · rw [hkind v hv]
    decide
  · rw [hkind v hv]
    decide

/-- **Identifiers and references are checked exactly.** A document that does not nest too deeply has
a report, and the report of a document tells of each sound attribute that declares an identifier
that has been declared before, and of each reference of a sound attribute to an identifier that
none of the document declares. -/
theorem violations_of_identifiers {draft : GrammarDraft} {own : Limits}
    (h : draft.compile own = .ok g) (ho : o.checksIdentifiers = true) (v : Validation)
    (t : Tree DocumentTag) :
    (t.height ≤ o.limits.maxDepth → ∃ r, (v.validate g o t.documentEvents).1 = .ok r) ∧
    ∀ r, (v.validate g o t.documentEvents).1 = .ok r →
      violationsOf .duplicateId r.violations =
        SoundAttribute.duplicates g.types [] (t.soundAttributes g o.context o.checksRoot) ∧
      violationsOf .danglingIdref r.violations =
        SoundAttribute.danglings g.types (t.soundAttributes g o.context o.checksRoot) := by
  have hg := GrammarDraft.closed_of_compile h
  refine ⟨fun hdepth => ⟨_, validate_passed hg t hdepth v⟩, fun r hr => ?_⟩
  rcases Nat.lt_or_ge o.limits.maxDepth t.height with hdeep | hdepth
  · rw [validate_of_deep hg t hdeep] at hr
    exact nomatch hr
  -- identity constraints report after the document, references to identifiers after them
  · have hnoted := noted_passed (GrammarDraft.rooted_of_compile h) ho v t
    have hkeys := plain_finishKeys (g := g) (o := o) (passed g o v t).keys
    obtain ⟨hdups, hdangs⟩ := violationsOf_danglings g.types
      (t.soundAttributes g o.context o.checksRoot)
    rw [validate_passed hg t hdepth, if_pos ho, dangling_eq hnoted.holds] at hr
    obtain rfl := Except.ok.inj hr
    simp only [violationsOf_append]
    rw [hkeys.duplicates_eq_nil, hkeys.danglings_eq_nil, hdups, hdangs, List.append_nil,
      List.append_nil, List.append_nil]
    exact ⟨hnoted.duplicates_eq, by rw [hnoted.danglings_eq, List.nil_append]⟩

/-- Links to parts. -/
def linkedParts : GrammarDraft where
  description := .schema none
  elements := [
    { name := .unqualified "parts"
      content := .children (.leaf (.element (.unqualified "part")) .oneOrMore)
      attributes := [{ name := .unqualified "links", type := .idReferences }] },
    { name := .unqualified "part"
      content := .empty
      attributes := [{ name := .unqualified "id", type := .id }] }]

/-- A part that is declared twice, and links to it and to another one. -/
def repeatedPart : Tree DocumentTag :=
  ⟨⟨.unqualified "parts", [⟨.unqualified "links", "a b"⟩]⟩,
    .element ⟨.unqualified "part", [⟨.unqualified "id", "a"⟩]⟩ .nil
      (.element ⟨.unqualified "part", [⟨.unqualified "id", " a "⟩]⟩ .nil .nil)⟩

theorem violations_of_repeatedPart : ∃ g, linkedParts.compile {} = .ok g ∧
    ∃ r, (Validation.validate g {} {} repeatedPart.documentEvents).1 = .ok r ∧
      violationsOf .duplicateId r.violations =
        SoundAttribute.duplicates g.types [] (repeatedPart.soundAttributes g {} true) ∧
      violationsOf .danglingIdref r.violations =
        SoundAttribute.danglings g.types (repeatedPart.soundAttributes g {} true) := by
  have hok : (linkedParts.compile {}).isOk := by decide +kernel
  obtain ⟨g, h⟩ := GrammarDraft.exists_compile_eq_ok hok
  obtain ⟨hreport, hexact⟩ := violations_of_identifiers (o := {}) h rfl {} repeatedPart
  obtain ⟨r, hr⟩ := hreport (by decide)
  exact ⟨g, h, r, hr, hexact r hr⟩

example : (linkedParts.compile {}).toOption.map (fun g =>
    let xs := repeatedPart.soundAttributes g {} true
    ((SoundAttribute.duplicates g.types [] xs).map (·.path?),
      (SoundAttribute.danglings g.types xs).map (·.value?))) =
        some ([some "/parts/part[2]"], [some "b"]) := by
  decide +kernel

/-- An element with two identifiers in the namespace of the validator. -/
def addressedIdentifiers : GrammarDraft where
  description := .schema none
  elements := [
    { name := .unqualified "part"
      content := .empty
      attributes := [
        { name := .qualified instanceSpace "a", type := .id },
        { name := .qualified instanceSpace "b", type := .id }] }]

/-- Attributes that are addressed to the validator declare nothing, also if they pass all checks. -/
theorem exists_addressed_duplicate :
    let part : Name := .unqualified "part"
    let as : List Attribute :=
      [⟨.qualified instanceSpace "a", "x"⟩, ⟨.qualified instanceSpace "b", "x"⟩]
    ∃ g, addressedIdentifiers.compile {} = .ok g ∧
      (SoundAttribute.duplicates g.types []
        (as.filterMap ((Placed.root g true part).1.soundAttribute? g {}))).length = 1 ∧
      (Validation.validate g {} {} [.start part as, .stop part]).1.toOption = some ⟨[]⟩ := by
  intro part as
  have hall : (addressedIdentifiers.compile {}).toOption.map (fun g =>
      ((SoundAttribute.duplicates g.types []
        (as.filterMap ((Placed.root g true part).1.soundAttribute? g {}))).length,
      (Validation.validate g {} {} [.start part as, .stop part]).1.toOption)) =
        some (1, some ⟨[]⟩) := by decide +kernel
  cases h : addressedIdentifiers.compile {} with
  | error f => rw [h] at hall; exact nomatch hall
  | ok g =>
    rw [h] at hall
    obtain ⟨hdup, hreport⟩ := Prod.mk.inj (Option.some.inj hall)
    exact ⟨g, rfl, hdup, hreport⟩

end Validation

end MarkupGrammar
