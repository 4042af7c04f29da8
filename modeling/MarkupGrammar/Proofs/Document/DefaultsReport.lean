import MarkupGrammar.Proofs.Document.WrittenDefaults

/-! # The report of a document with defaults written out

A document and the same document with its defaults written out have the same report exactly if the
literals that are written out pass their checks, and declare no identifier again and refer to none
that is not found (`validate_withDefaults`). Without an evaluator for assertions the literals pass
their checks; so defaults behave as if written out, if their types are not those of identifiers. -/

namespace MarkupGrammar

variable {g : Grammar} {types : TypeTable} {ctx : ValueContext} {e : Placed}
  {o : ValidationOptions} {xs ys : List SoundAttribute}

/-! ## Literals that are sound -/

/-- The literals of absent attributes pass their checks. -/
def Tree.DefaultsSound (g : Grammar) (ctx : ValueContext) (checksRoot : Bool)
    (t : Tree DocumentTag) : Prop :=
  ∀ p ∈ t.placed g checksRoot, ∀ l ∈ p.1.absentAttributes g p.2,
    (p.1.soundAttribute? g ctx l).isSome

theorem Validation.unsoundDefaults_eq_nil (checksRoot : Bool) (t : Tree DocumentTag) :
    (t.passages g ctx checksRoot).flatMap (unsoundDefaults g ctx) = [] ↔
      t.DefaultsSound g ctx checksRoot := by
  have hpassage (p : Passage) : unsoundDefaults g ctx p = [] ↔
      ∀ q ∈ p.begun?, ∀ l ∈ q.1.absentAttributes g q.2, (q.1.soundAttribute? g ctx l).isSome := by
    unfold unsoundDefaults
    cases p.begun? with
    | none => simp
    | some q => simp [List.filter_eq_nil_iff, Option.isSome_iff_ne_none]
  rw [List.flatMap_eq_nil_iff, Tree.DefaultsSound, ← t.begun_passages ctx]
  simp only [hpassage, List.mem_filterMap]
  exact ⟨fun h q ⟨p, hp, hq⟩ => h p hp q hq, fun h p hp q hq => h q ⟨p, hp, hq⟩⟩

/-- The default of an attribute with a valid default is accepted. -/
theorem AttributeDeclaration.accepted_default {a : AttributeDeclaration} {l : Attribute}
    (h : a.HasValidDefault types) (hl : a.default? = some l) :
    (a.accepted? types {} l.value).isSome := by
  obtain ⟨value, hvalue, rfl⟩ := Option.map_eq_some_iff.mp hl
  obtain ⟨treated, htreated⟩ := h value hvalue
  obtain ⟨type, htype, rfl⟩ := AttributeType.check_eq_ok htreated
  have hfixed : a.fixedOtherThan? types (type.spacing.normalize value) = none := by
    unfold fixedOtherThan?
    cases hp : a.presence with
    | required | implied | default _ => rfl
    | fixed fixed =>
      rw [hp] at hvalue
      obtain rfl := Option.some.inj hvalue
      dsimp only
      rw [htype]
      dsimp only
      rw [if_pos rfl]
  unfold accepted?
  rw [htreated]
  dsimp only
  rw [hfixed]
  rfl

/-! ## Attributes that do not concern identifiers -/

/-- The types of attributes with defaults are not those of identifiers or references. -/
def Grammar.DefaultsSilent (g : Grammar) : Prop :=
  ∀ d ∈ g.elements, ∀ a ∈ (g.attributesOf d).map (·.2), a.default?.isSome →
    g.types.idRole a.type.typeName = .none

instance (g : Grammar) : Decidable g.DefaultsSilent :=
  inferInstanceAs (Decidable (∀ d ∈ g.elements, ∀ a ∈ (g.attributesOf d).map (·.2),
    a.default?.isSome → g.types.idRole a.type.typeName = .none))

namespace SoundAttribute

/-- The attribute declares an identifier or makes references. -/
def speaks (types : TypeTable) (x : SoundAttribute) : Bool := types.idRole x.type ≠ .none

theorem silent_of_not_speaks (hroot : types.Rooted) {x : SoundAttribute}
    (h : ¬ x.speaks types = true) : x.identifier? types = none ∧ x.references types = [] := by
  have hrole : types.idRole x.type = .none := by simpa [speaks] using h
  rcases x.role_cases hroot with ⟨-, hid, hrefs⟩ | ⟨hother, -⟩ | ⟨hother, -⟩ | ⟨hother, -⟩
  · exact ⟨hid, hrefs⟩
  all_goals
    rw [hrole] at hother
    exact nomatch hother

theorem identifiers_filter (hroot : types.Rooted) (xs : List SoundAttribute) :
    identifiers types (xs.filter (speaks types)) = identifiers types xs := by
  unfold identifiers
  rw [List.filterMap_filter]
  refine List.filterMap_congr fun x _ => ?_
  by_cases hx : x.speaks types = true
  · rw [if_pos hx]
  · rw [if_neg hx, (silent_of_not_speaks hroot hx).1]

/-- Attributes that do not concern identifiers make no difference to those that are declared
again. -/
theorem duplicates_filter (hroot : types.Rooted) (xs ys : List SoundAttribute) :
    duplicates types (xs.filter (speaks types)) (ys.filter (speaks types)) =
      duplicates types xs ys := by
  induction ys generalizing xs with
  | nil => rfl
  | cons y ys ih =>
    rw [duplicates, ← ih, List.filter_append]
    by_cases hy : y.speaks types = true
    · rw [List.filter_cons_of_pos hy, duplicates, List.filter_cons_of_pos hy, List.filter_nil]
      unfold duplicate
      rw [identifiers_filter hroot]
    · rw [List.filter_cons_of_neg hy, List.filter_cons_of_neg hy, List.filter_nil, List.append_nil]
      unfold duplicate
      rw [(silent_of_not_speaks hroot hy).1]
      rfl

/-- Attributes that do not concern identifiers make no difference to references. -/
theorem danglings_filter (hroot : types.Rooted) (xs : List SoundAttribute) :
    danglings types (xs.filter (speaks types)) = danglings types xs := by
  unfold danglings
  rw [identifiers_filter hroot]
  generalize identifiers types xs = ids
  induction xs with
  | nil => rfl
  | cons x xs ih =>
    rw [List.flatMap_cons, ← ih]
    by_cases hx : x.speaks types = true
    · rw [List.filter_cons_of_pos hx, List.flatMap_cons]
    · rw [List.filter_cons_of_neg hx, (silent_of_not_speaks hroot hx).2]
      rfl

/-- The same identifiers are declared again, and the same references are not found. -/
def Agree (types : TypeTable) (xs ys : List SoundAttribute) : Prop :=
  duplicates types [] ys = duplicates types [] xs ∧ danglings types ys = danglings types xs

theorem agree_of_filter (hroot : types.Rooted)
    (h : ys.filter (speaks types) = xs.filter (speaks types)) : Agree types xs ys := by
  constructor
  · rw [← duplicates_filter hroot [] ys, h, duplicates_filter hroot [] xs]
  · rw [← danglings_filter hroot ys, h, danglings_filter hroot xs]

end SoundAttribute

/-! ## Documents -/

theorem Passage.begun_withDefaults (p : Passage) : (p.withDefaults g).begun? =
    p.begun?.map fun (e, as) => (e, as ++ e.absentAttributes g as) := by
  cases p <;> rfl

namespace Tree

variable {checksRoot : Bool}

theorem soundAttributes_withDefaults (t : Tree DocumentTag) :
    (t.withDefaults g checksRoot).soundAttributes g ctx checksRoot =
      (t.placed g checksRoot).flatMap fun (e, as) =>
        e.soundAttributes g ctx as ++ e.soundAttributes g ctx (e.absentAttributes g as) := by
  rw [soundAttributes, ← begun_passages ctx, passages_withDefaults, List.filterMap_map,
    ← begun_passages ctx]
  simp only [Function.comp_def, Passage.begun_withDefaults, ← List.map_filterMap, List.flatMap_map,
    Placed.soundAttributes_append]

/-- The literal of an absent attribute is accepted if it is for its declaration. -/
theorem soundAttribute_absent (ctx : ValueContext) (hg : g.Writable) {as : List Attribute}
    {l : Attribute} (hl : l ∈ e.absentAttributes g as) :
    ∃ d ∈ g.elements, ∃ a ∈ (g.attributesOf d).map (·.2), a.default? = some l ∧
      e.soundAttribute? g ctx l =
        (a.accepted? g.types ctx l.value).map (⟨l.name, a.type.typeName, ·, e.path⟩) := by
  obtain ⟨d, hmem, hd, a, ha, hdefault⟩ := Placed.mem_absentAttributes hl
  refine ⟨d, hmem, a, ha, hdefault, ?_⟩
  rw [Placed.soundAttribute?, hd, Option.bind_some, AttributeDeclaration.name_of_default hdefault,
    Grammar.findAttribute_of_mem (hg.names d hmem) ha, Option.bind_some]

/-- Valid defaults are sound, where assertions do not count. -/
theorem defaultsSound_of_valid (hg : g.Writable)
    (hvalid : ∀ d ∈ g.elements, ∀ a ∈ (g.attributesOf d).map (·.2), a.HasValidDefault g.types)
    (t : Tree DocumentTag) : t.DefaultsSound g {} checksRoot := by
  intro p _ l hl
  obtain ⟨d, hd, a, ha, hdefault, hsound⟩ := soundAttribute_absent {} hg hl
  rw [hsound, Option.isSome_map]
  exact AttributeDeclaration.accepted_default (hvalid d hd a ha) hdefault

/-- Defaults that do not concern identifiers make no difference to them. -/
theorem agree_of_silent (hg : g.Writable) (hsilent : g.DefaultsSilent)
    (t : Tree DocumentTag) : SoundAttribute.Agree g.types (t.soundAttributes g ctx checksRoot)
      ((t.withDefaults g checksRoot).soundAttributes g ctx checksRoot) := by
  refine SoundAttribute.agree_of_filter hg.rooted ?_
  rw [soundAttributes_withDefaults, soundAttributes, List.filter_flatMap, List.filter_flatMap]
  refine List.flatMap_congr fun p _ => ?_
  have hnone : (p.1.soundAttributes g ctx (p.1.absentAttributes g p.2)).filter
      (SoundAttribute.speaks g.types) = [] := by
    refine List.filter_eq_nil_iff.mpr fun x hx => ?_
    obtain ⟨l, hl, hx⟩ := List.mem_filterMap.mp hx
    obtain ⟨d, hd, a, ha, hdefault, hsound⟩ :=
      soundAttribute_absent ctx hg (List.mem_of_mem_filter hl)
    rw [hsound] at hx
    obtain ⟨value, -, rfl⟩ := Option.map_eq_some_iff.mp hx
    have hrole := hsilent d hd a ha (hdefault ▸ rfl)
    simpa [SoundAttribute.speaks] using hrole
  rw [List.filter_append, hnone, List.append_nil]

end Tree

namespace Validation

/-- Reports differ in the violations along the document or in references that are not found. -/
theorem append_danglings_inj {vs vs' ws is is' : List Violation}
    (h : violationsOf .danglingIdref vs = []) (h' : violationsOf .danglingIdref vs' = [])
    (his : violationsOf .danglingIdref is = is) (his' : violationsOf .danglingIdref is' = is') :
    vs' ++ ws ++ is' = vs ++ ws ++ is ↔ vs' = vs ∧ is' = is := by
  constructor
  · intro heq
    -- the references that are not found are the only ones of their kind
    have hdangs := congrArg (violationsOf .danglingIdref) heq
    simp only [violationsOf_append, h, h', his, his', List.nil_append,
      List.append_cancel_left_eq] at hdangs
    subst hdangs
    rw [List.append_cancel_right_eq, List.append_cancel_right_eq] at heq
    exact ⟨heq, rfl⟩
  · rintro ⟨rfl, rfl⟩
    rfl

/-- **When defaults may be written out.** The outcome is the same exactly if the document nests too
deeply, or the literals are sound and agree on the identifiers, if these are checked. -/
theorem validate_withDefaults_iff (hclosed : g.Closed) (hg : g.Writable) (v : Validation)
    (t : Tree DocumentTag) :
    (v.validate g o (t.withDefaults g o.checksRoot).documentEvents).1 =
        (v.validate g o t.documentEvents).1 ↔
      o.limits.maxDepth < t.height ∨ t.DefaultsSound g o.context o.checksRoot ∧
        (o.checksIdentifiers = true → SoundAttribute.Agree g.types
          (t.soundAttributes g o.context o.checksRoot)
          ((t.withDefaults g o.checksRoot).soundAttributes g o.context o.checksRoot)) := by
  rcases Nat.lt_or_ge o.limits.maxDepth t.height with hdeep | hdepth
  · rw [validate_of_deep hclosed t hdeep,
      validate_of_deep hclosed _ (by rwa [t.height_withDefaults])]
    exact ⟨fun _ => .inl hdeep, fun _ => rfl⟩
  · have hahead := ahead_passed (o := o) hg v t
    have hfinish : finishKeys g o (passed g o v (t.withDefaults g o.checksRoot)).keys =
        finishKeys g o (passed g o v t).keys := congrArg (finishKeys g o) hahead.keys_eq
    rw [validate_passed hclosed t hdepth,
      validate_passed hclosed _ (by rwa [t.height_withDefaults]), hfinish, Except.ok.injEq,
      Report.mk.injEq, ← unsoundDefaults_eq_nil, ← List.length_eq_zero_iff,
      or_iff_right (Nat.not_lt.mpr hdepth)]
    have hgrown := hahead.grown.eq_iff
    -- without a check of identifiers the reports end with the identity constraints
    cases ho : o.checksIdentifiers with
    | false =>
      rw [ho] at hgrown
      simpa using hgrown
    | true =>
      have hnoted := noted_passed hg.rooted ho v t
      have hnoted' := noted_passed hg.rooted ho v (t.withDefaults g o.checksRoot)
      rw [ho, hnoted.duplicates_eq, hnoted'.duplicates_eq] at hgrown
      rw [if_pos rfl, if_pos rfl, dangling_eq hnoted.holds, dangling_eq hnoted'.holds,
        append_danglings_inj hnoted.danglings_eq hnoted'.danglings_eq (violationsOf_danglings _ _).2
          (violationsOf_danglings _ _).2, hgrown, and_assoc]
      exact and_congr_right fun _ => ⟨fun ⟨hdups, hdangs⟩ _ => ⟨hdups rfl, hdangs⟩,
        fun hagree => ⟨fun _ => (hagree rfl).1, (hagree rfl).2⟩⟩

/-- **Defaults that are written out.** The report of a document is the same with its defaults
written out exactly if the literals that are written out pass their checks, and the same identifiers
are declared again and the same references are not found with them; a document that nests too deeply
has none either way. Where assertions do not count, and identifiers are not checked or defaults do
not concern them, it always is the same. -/
theorem validate_withDefaults {draft : GrammarDraft} {own : Limits} (h : draft.compile own = .ok g)
    (hunreserved : g.DefaultsUnreserved) (o : ValidationOptions) (v : Validation)
    (t : Tree DocumentTag) :
    let written := t.withDefaults g o.checksRoot
    ((v.validate g o written.documentEvents).1 = (v.validate g o t.documentEvents).1 ↔
      o.limits.maxDepth < t.height ∨ t.DefaultsSound g o.context o.checksRoot ∧
        (o.checksIdentifiers = true → SoundAttribute.Agree g.types
          (t.soundAttributes g o.context o.checksRoot)
          (written.soundAttributes g o.context o.checksRoot))) ∧
    (o.evaluate? = none → (o.checksIdentifiers = true → g.DefaultsSilent) →
      (v.validate g o written.documentEvents).1 = (v.validate g o t.documentEvents).1) := by
  intro written
  have hg : g.Writable := ⟨GrammarDraft.rooted_of_compile h,
    fun d hd => (GrammarDraft.attributes_of_compile h d hd).1, hunreserved⟩
  have hiff := validate_withDefaults_iff (o := o) (GrammarDraft.closed_of_compile h) hg v t
  refine ⟨hiff, fun heval hsilent => hiff.mpr (.inr ⟨?_, fun ho => ?_⟩)⟩
  · have hcontext : o.context = {} := by rw [ValidationOptions.context, heval]
    rw [hcontext]
    exact Tree.defaultsSound_of_valid hg
      (fun d hd => (GrammarDraft.attributes_of_compile h d hd).2) t
  · exact Tree.agree_of_silent hg (hsilent ho) t

/-- Items with codes that are different, and a code for those without one. -/
def codedItems : GrammarDraft where
  description := .schema none
  elements := [
    { name := .unqualified "items"
      content := .children (.leaf (.element (.unqualified "item")) .zeroOrMore)
      constraints := [
        { name := .unqualified "codes", kind := .key, selector := "item", fields := ["@code"] }] },
    { name := .unqualified "item"
      content := .empty
      attributes := [{ name := .unqualified "code", presence := .default "x" }] }]

/-- An item without a code and one with the code that stands for it. -/
def sameCodes : Tree DocumentTag :=
  ⟨⟨.unqualified "items", []⟩, .element ⟨.unqualified "item", []⟩ .nil
    (.element ⟨.unqualified "item", [⟨.unqualified "code", "x"⟩]⟩ .nil .nil)⟩

theorem validate_sameCodes_withDefaults : ∃ g, codedItems.compile {} = .ok g ∧
    (Validation.validate g {} {} (sameCodes.withDefaults g true).documentEvents).1 =
      (Validation.validate g {} {} sameCodes.documentEvents).1 := by
  have hall : (codedItems.compile {}).toOption.any (fun g =>
      decide g.DefaultsUnreserved && decide g.DefaultsSilent) := by decide +kernel
  cases h : codedItems.compile {} with
  | error f => rw [h] at hall; exact nomatch hall
  | ok g =>
    rw [h] at hall
    obtain ⟨hunreserved, hsilent⟩ := Bool.and_eq_true_iff.mp hall
    obtain ⟨-, hsame⟩ := validate_withDefaults h (of_decide_eq_true hunreserved) {} {} sameCodes
    exact ⟨g, rfl, hsame rfl fun _ => of_decide_eq_true hsilent⟩

example : (codedItems.compile {}).toOption.map (fun g =>
    (Validation.validate g {} {} sameCodes.documentEvents).1.toOption.map
      (·.violations.map (·.kind))) = some (some [.duplicateKey]) := by
  decide +kernel

/-- A part with a link to a part that is not there, where it has no other. -/
def linkedByDefault : GrammarDraft where
  description := .schema none
  elements := [
    { name := .unqualified "part"
      content := .empty
      attributes := [
        { name := .unqualified "link", type := .idReference, presence := .default "x" }] }]

/-- A reference by default is not looked up, but is if it is written out. -/
theorem exists_default_dangling :
    let t : Tree DocumentTag := ⟨⟨.unqualified "part", []⟩, .nil⟩
    ∃ g, linkedByDefault.compile {} = .ok g ∧
      (Validation.validate g {} {} t.documentEvents).1.toOption = some ⟨[]⟩ ∧
      (Validation.validate g {} {} (t.withDefaults g true).documentEvents).1.toOption =
        some ⟨[danglingViolation ⟨"x", "/part"⟩]⟩ := by
  intro t
  have hall : (linkedByDefault.compile {}).toOption.map (fun g =>
      ((Validation.validate g {} {} t.documentEvents).1.toOption,
        (Validation.validate g {} {} (t.withDefaults g true).documentEvents).1.toOption)) =
          some (some ⟨[]⟩, some ⟨[danglingViolation ⟨"x", "/part"⟩]⟩) := by decide +kernel
  cases h : linkedByDefault.compile {} with
  | error f => rw [h] at hall; exact nomatch hall
  | ok g =>
    rw [h] at hall
    obtain ⟨hwithout, hwith⟩ := Prod.mk.inj (Option.some.inj hall)
    exact ⟨g, rfl, hwithout, hwith⟩

end Validation

end MarkupGrammar
