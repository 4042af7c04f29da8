import MarkupGrammar.Proofs.Document.Defaults

/-! # Validating documents with defaults written out

A document and the same document with its defaults written out are validated side by side. With the
defaults written out the validation is *ahead* (`Validation.Ahead`): it knows more identifiers, and
reports the same violations and maybe more, which are of literals that are not sound, or of
identifiers that are declared again. -/

namespace MarkupGrammar

variable {g : Grammar} {types : TypeTable} {ctx : ValueContext} {e : Placed}
  {d : ElementDeclaration} {o : ValidationOptions} {v v' : Validation} {kept : Bool}
  {i i' : Option Identifiers} {as ls : List Attribute} {vs vs' : List Violation} {n m : Nat}

/-! ## More identifiers -/

namespace Identifiers

/-- Identifiers are kept or not, and if they are there are more in the second place. -/
inductive Within : Bool → Option Identifiers → Option Identifiers → Prop
  | unkept : Within false none none
  | kept {t t' : Identifiers} (h : ∀ id, t.contains id → t'.contains id) :
    Within true (some t) (some t')

theorem Within.refl (kept : Bool) (t : Identifiers) :
    Within kept (if kept then some t else none) (if kept then some t else none) := by
  cases kept
  · exact .unkept
  · exact .kept fun _ h => h

theorem Within.getD (h : Within kept i i') (t t' : Identifiers) :
    (if kept then some (i.getD t) else none) = i ∧
      (if kept then some (i'.getD t') else none) = i' := by
  cases h with
  | unkept => exact ⟨rfl, rfl⟩
  | kept h => exact ⟨rfl, rfl⟩

end Identifiers

open Identifiers (Within)

/-! ## More violations -/

/-- The number of violations that are not of identifiers that are declared again. -/
def otherViolations (vs : List Violation) : Nat := vs.countP (·.kind ≠ .duplicateId)

/-- There are more identifiers and more violations in the second place; of the latter, a given
number are not of identifiers that are declared again. -/
structure Grown (kept : Bool) (n : Nat) (i i' : Option Identifiers) (vs vs' : List Violation) :
    Prop where
  within : Within kept i i'
  sublist : vs.Sublist vs'
  others_eq : otherViolations vs' = otherViolations vs + n
  unkept : kept = false → violationsOf .duplicateId vs' = []

namespace Grown

variable {j j' : Option Identifiers} {ws ws' : List Violation}

theorem append (h : Grown kept n i i' vs vs') (h' : Grown kept m j j' ws ws') :
    Grown kept (n + m) j j' (vs ++ ws) (vs' ++ ws') where
  within := h'.within
  sublist := h.sublist.append h'.sublist
  others_eq := by
    have hothers := h.others_eq
    have hothers' := h'.others_eq
    unfold otherViolations at *
    rw [List.countP_append, List.countP_append]
    omega
  unkept := fun hk => by rw [violationsOf_append, h.unkept hk, h'.unkept hk, List.nil_append]

theorem of_plain (h : Within kept i i') (hvs : Plain vs) : Grown kept 0 i i' vs vs :=
  ⟨h, .refl vs, rfl, fun _ => hvs.duplicates_eq_nil⟩

theorem append_plain (h : Grown kept n i i' vs vs') (hws : Plain ws) :
    Grown kept n i i' (vs ++ ws) (vs' ++ ws) :=
  h.append (of_plain h.within hws)

/-- **The violations are the same** if all others are sound and the same identifiers are declared
again. -/
theorem eq_iff (h : Grown kept n i i' vs vs') : vs' = vs ↔
    n = 0 ∧ (kept = true → violationsOf .duplicateId vs' = violationsOf .duplicateId vs) := by
  constructor
  · rintro rfl
    have hothers := h.others_eq
    exact ⟨by omega, fun _ => rfl⟩
  · rintro ⟨rfl, hdups⟩
    have hdups :
        (violationsOf .duplicateId vs').length = (violationsOf .duplicateId vs).length := by
      cases kept with
      | true => rw [hdups rfl]
      | false =>
        have hnone := h.unkept rfl
        have hsub : (violationsOf .duplicateId vs).Sublist (violationsOf .duplicateId vs') :=
          h.sublist.filter _
        rw [hnone, List.sublist_nil] at hsub
        rw [hnone, hsub]
    -- the first list is a sublist of the second, so it is enough to compare their lengths
    have hlength (l : List Violation) :
        l.length = (violationsOf .duplicateId l).length + otherViolations l := by
      rw [List.length_eq_countP_add_countP (·.kind = .duplicateId), violationsOf,
        List.countP_eq_length_filter, otherViolations]
      simp
    refine (h.sublist.eq_of_length ?_).symm
    rw [hlength vs, hlength vs', hdups, h.others_eq]
    omega

end Grown

/-! ## Sound attributes -/

namespace SoundAttribute

/-- The same attribute, while more identifiers are declared. -/
theorem grown_entered (hroot : types.Rooted) (h : Within kept i i') (x : SoundAttribute) :
    Grown kept 0 (x.entered types i).1 (x.entered types i').1 (x.entered types i).2
      (x.entered types i').2 := by
  cases h with
  | unkept => exact .of_plain .unkept plain_nil
  | @kept t t' h =>
    rcases x.entered_cases hroot t with ⟨id, hid, -, hin, hx⟩ | ⟨hnew, next, hx, hnext, -⟩ <;>
    rcases x.entered_cases hroot t' with
      ⟨id', hid', -, hin', hx'⟩ | ⟨hnew', next', hx', hnext', -⟩ <;>
    rw [hx, hx']
    -- its identifier is declared in both places, or in the second only, or in none
    · obtain rfl := Option.some.inj (hid.symm.trans hid')
      exact ⟨.kept h, .refl _, rfl, by simp⟩
    · exact absurd (h _ hin) (hnew' id hid)
    · refine ⟨.kept fun other hother => ?_, List.nil_sublist _, rfl, by simp⟩
      rcases (hnext other).mp hother with hother | hother
      · exact h other hother
      · exact Option.some.inj (hid'.symm.trans hother) ▸ hin'
    · refine ⟨.kept fun other hother => (hnext' other).mpr ?_, .refl _, rfl, by simp⟩
      exact ((hnext other).mp hother).imp_left (h other)

/-- One attribute more. -/
theorem grown_more (hroot : types.Rooted) (h : Within kept i i') (x : SoundAttribute) :
    Grown kept 0 i (x.entered types i').1 [] (x.entered types i').2 := by
  cases h with
  | unkept => exact .of_plain .unkept plain_nil
  | @kept t t' h =>
    rcases x.entered_cases hroot t' with ⟨_, -, -, -, hx'⟩ | ⟨-, next', hx', hnext', -⟩
    · rw [hx']
      exact ⟨.kept h, List.nil_sublist _, rfl, by simp⟩
    · rw [hx']
      exact ⟨.kept fun id hid => (hnext' id).mpr (.inl (h id hid)), .refl _, rfl, by simp⟩

end SoundAttribute

/-! ## Attributes of an element -/

namespace Grammar

theorem checkPresent_append (ctx : ValueContext) (path : String) (ids? : Option Identifiers)
    (as bs : List Attribute) :
    (g.checkPresent d ctx path ids? (as ++ bs)).violations =
        (g.checkPresent d ctx path ids? as).violations ++
          (g.checkPresent d ctx path (g.checkPresent d ctx path ids? as).ids? bs).violations ∧
      (g.checkPresent d ctx path ids? (as ++ bs)).ids? =
        (g.checkPresent d ctx path (g.checkPresent d ctx path ids? as).ids? bs).ids? := by
  induction as generalizing ids? with
  | nil => exact ⟨rfl, rfl⟩
  | cons a as ih =>
    obtain ⟨hviolations, hids⟩ := ih (g.checkAttribute d ctx path ids? a).ids?
    rw [List.cons_append, checkPresent, checkPresent]
    dsimp only
    rw [hviolations, List.append_assoc]
    exact ⟨rfl, hids⟩

/-- The same attributes, while more identifiers are declared. -/
theorem grown_checkPresent (ctx : ValueContext) (hroot : g.types.Rooted)
    (hd : e.declaration? g = some d) (h : Within kept i i') (as : List Attribute) : Grown kept 0
      (g.checkPresent d ctx e.path i as).ids? (g.checkPresent d ctx e.path i' as).ids?
      (g.checkPresent d ctx e.path i as).violations
      (g.checkPresent d ctx e.path i' as).violations := by
  induction as generalizing i i' with
  | nil => exact .of_plain h plain_nil
  | cons a as ih =>
    have hfirst : Grown kept 0 (g.checkAttribute d ctx e.path i a).ids?
        (g.checkAttribute d ctx e.path i' a).ids? (g.checkAttribute d ctx e.path i a).violations
        (g.checkAttribute d ctx e.path i' a).violations := by
      rcases checkAttribute_cases ctx hd a with
        ⟨-, vs, hplain, -, hcheck⟩ | ⟨x, -, -, hcheck⟩
      · rw [hcheck, hcheck]
        exact .of_plain h hplain
      · rw [hcheck, hcheck]
        exact x.grown_entered hroot h
    exact hfirst.append (ih hfirst.within)

/-- Literals of declared attributes more. -/
theorem grown_literals (ctx : ValueContext) (hroot : g.types.Rooted)
    (hd : e.declaration? g = some d) (h : Within kept i i')
    (hls : ∀ l ∈ ls, l.isReserved = false ∧ (g.findAttribute d l.name).isSome) :
    Grown kept (ls.filter fun l => (e.soundAttribute? g ctx l).isNone).length i
      (g.checkPresent d ctx e.path i' ls).ids? []
      (g.checkPresent d ctx e.path i' ls).violations := by
  induction ls generalizing i' with
  | nil => exact .of_plain h plain_nil
  | cons l ls ih =>
    obtain ⟨⟨hun, hfound⟩, hls⟩ := List.forall_mem_cons.mp hls
    rcases checkAttribute_cases ctx hd l with
      ⟨hnone, vs, hplain, hone, hcheck⟩ | ⟨x, hsome, -, hcheck⟩
    · have hsound : (e.soundAttribute? g ctx l).isNone := by
        rw [Option.isNone_iff_eq_none]
        simpa [Placed.soundAttributes, hun] using hnone
      have hothers : otherViolations vs = 1 := by
        rw [← hone hun hfound]
        refine List.countP_eq_length.mpr fun v hv => ?_
        simpa using (hplain v hv).1
      have hfirst : Grown kept 1 i (g.checkAttribute d ctx e.path i' l).ids? []
          (g.checkAttribute d ctx e.path i' l).violations := by
        rw [hcheck]
        exact ⟨h, List.nil_sublist _, hothers, fun _ => hplain.duplicates_eq_nil⟩
      rw [List.filter_cons, if_pos hsound, List.length_cons, Nat.add_comm]
      exact hfirst.append (ih hfirst.within hls)
    · have hfirst : Grown kept 0 i (g.checkAttribute d ctx e.path i' l).ids? []
          (g.checkAttribute d ctx e.path i' l).violations := by
        rw [hcheck]
        exact x.grown_more hroot h
      have hrest := hfirst.append (ih hfirst.within hls)
      rw [Nat.zero_add] at hrest
      rw [List.filter_cons, hsome, Option.isNone_some, if_neg Bool.false_ne_true]
      exact hrest

end Grammar

/-! ## Passages -/

/-- The attributes of elements are such that defaults may be written out. -/
structure Grammar.Writable (g : Grammar) : Prop where
  rooted : g.types.Rooted
  names : ∀ d ∈ g.elements, ((g.attributesOf d).map (·.2.name)).Nodup
  unreserved : g.DefaultsUnreserved

namespace Validation

/-- The identifiers, if they are kept. -/
def identifiers? (o : ValidationOptions) (v : Validation) : Option Identifiers :=
  if o.checksIdentifiers then some v.identifiers else none

/-- The literals of absent attributes that are not sound if they are written out. -/
def unsoundDefaults (g : Grammar) (ctx : ValueContext) (p : Passage) : List Attribute :=
  match p.begun? with
  | some (e, as) => (e.absentAttributes g as).filter fun l => (e.soundAttribute? g ctx l).isNone
  | none => []

/-- The second validation is ahead of the first: it knows more identifiers, and has reported more
violations, among them a given number that are not of identifiers that are declared again. -/
structure Ahead (o : ValidationOptions) (n : Nat) (v v' : Validation) : Prop where
  keys_eq : v'.keys = v.keys
  grown : Grown o.checksIdentifiers n (v.identifiers? o) (v'.identifiers? o) v.violations
    v'.violations

theorem Ahead.refl (v : Validation) (hv : v.violations = []) : Ahead o 0 v v :=
  ⟨rfl, .of_plain (.refl _ _) (hv ▸ plain_nil)⟩

/-- The attributes of an element with and without defaults written out. -/
theorem grown_checkAttributes (hg : g.Writable) (e : Placed) (as : List Attribute)
    (h : Within o.checksIdentifiers (v.identifiers? o) (v'.identifiers? o)) :
    let written := as ++ e.absentAttributes g as
    (v'.checkAttributes g o e.mode e.path written).effective.map (·.typed) =
        (v.checkAttributes g o e.mode e.path as).effective.map (·.typed) ∧
      Grown o.checksIdentifiers
        ((e.absentAttributes g as).filter fun l => (e.soundAttribute? g o.context l).isNone).length
        (v.checkAttributes g o e.mode e.path as).ids?
        (v'.checkAttributes g o e.mode e.path written).ids?
        (v.checkAttributes g o e.mode e.path as).violations
        (v'.checkAttributes g o e.mode e.path written).violations := by
  intro written
  cases hd : e.declaration? g with
  | none =>
    -- nothing is absent where nothing is declared
    have hnone : e.absentAttributes g as = [] := by
      unfold Placed.absentAttributes
      rw [hd]
    simp only [written, hnone, List.append_nil]
    rw [checkAttributes_of_none hd, checkAttributes_of_none hd]
    exact ⟨rfl, .of_plain h plain_nil⟩
  | some d =>
    have hnames := hg.names d (Placed.mem_of_declaration hd)
    have hunreserved := hg.unreserved d (Placed.mem_of_declaration hd)
    have habsent : e.absentAttributes g as = (g.missing d as).filterMap (·.default?) := by
      unfold Placed.absentAttributes
      rw [hd]
    have hls : ∀ l ∈ e.absentAttributes g as,
        l.isReserved = false ∧ (g.findAttribute d l.name).isSome := by
      intro l hl
      obtain ⟨d', -, hd', a, ha, hl⟩ := Placed.mem_absentAttributes hl
      obtain rfl := Option.some.inj (hd.symm.trans hd')
      refine ⟨hunreserved a ha l hl, ?_⟩
      rw [AttributeDeclaration.name_of_default hl, Grammar.findAttribute_of_mem hnames ha]
      rfl
    obtain ⟨htyped, hviolations⟩ := Grammar.checkAttributes_append o.context hnames
      hunreserved (v.identifiers? o) (v'.identifiers? o) e.path as
    have hplain := Grammar.plain_checkAbsent (d := d) e.path (g.missing d as)
    rw [List.flatMap_map] at hplain
    have hpresent := Grammar.grown_checkPresent o.context hg.rooted hd h as
    have hgrown := (hpresent.append
      (Grammar.grown_literals o.context hg.rooted hd hpresent.within hls)).append_plain hplain
    obtain ⟨hwritten, hids⟩ := Grammar.checkPresent_append (g := g) (d := d) o.context e.path
      (v'.identifiers? o) as (e.absentAttributes g as)
    rw [List.append_nil, Nat.zero_add, ← hwritten, ← hids, habsent, ← hviolations] at hgrown
    rw [checkAttributes_of_some hd, checkAttributes_of_some hd]
    simp only [written, habsent]
    refine ⟨htyped, ?_⟩
    rw [Grammar.checkAttributes_eq _ _ as]
    exact hgrown

/-- **A passage with defaults written out leaves the validation ahead.** -/
theorem Ahead.pass (hg : g.Writable) (h : Ahead o n v v') {p : Passage} (hp : p.IsPlain) :
    Ahead o (n + (unsoundDefaults g o.context p).length) (v.pass g o p)
      (v'.pass g o (p.withDefaults g)) := by
  cases p with
  | start e as reported =>
    obtain ⟨htyped, hgrown⟩ := grown_checkAttributes hg e as h.grown.within
    -- identity constraints see the attributes as they count, so nothing changes for them
    have hkeys : startKeys g o v'.keys e ((v'.checkAttributes g o e.mode e.path
        (as ++ e.absentAttributes g as)).effective.map (·.typed)) =
        startKeys g o v.keys e
          ((v.checkAttributes g o e.mode e.path as).effective.map (·.typed)) := by
      rw [htyped, h.keys_eq]
    have hplain := plain_startKeys (g := g) (o := o) v.keys e
      ((v.checkAttributes g o e.mode e.path as).effective.map (·.typed))
    obtain ⟨hids, hids'⟩ := hgrown.within.getD v.identifiers v'.identifiers
    refine ⟨congrArg (·.1) hkeys, ?_⟩
    have hreport := ((h.grown.append_plain hp).append hgrown).append_plain hplain
    rw [← hids, ← hids'] at hreport
    rw [Passage.withDefaults, Validation.pass, Validation.pass]
    dsimp only
    rw [hkeys]
    simp only [report, ← List.append_assoc]
    exact hreport
  | text s reported =>
    refine ⟨?_, h.grown.append_plain hp⟩
    change (if o.checksConstraints then v'.keys.characters s else v'.keys) =
      if o.checksConstraints then v.keys.characters s else v.keys
    rw [h.keys_eq]
  | stop reported =>
    have hkeys : stopKeys g o v'.keys = stopKeys g o v.keys := congrArg (stopKeys g o) h.keys_eq
    refine ⟨congrArg (·.1) hkeys, ?_⟩
    have hreport := h.grown.append_plain (hp.append (plain_stopKeys (g := g) (o := o) v.keys))
    rw [Passage.withDefaults, Validation.pass, Validation.pass, hkeys]
    exact hreport

theorem Ahead.foldl_pass (hg : g.Writable) (h : Ahead o n v v') {ps : List Passage}
    (hps : ∀ p ∈ ps, p.IsPlain) :
    Ahead o (n + (ps.flatMap (unsoundDefaults g o.context)).length)
      (ps.foldl (Validation.pass g o) v)
      ((ps.map (Passage.withDefaults g)).foldl (Validation.pass g o) v') := by
  induction ps generalizing n v v' with
  | nil => exact h
  | cons p ps ih =>
    obtain ⟨hp, hps⟩ := List.forall_mem_cons.mp hps
    rw [List.map_cons, List.flatMap_cons, List.length_append, ← Nat.add_assoc]
    exact ih (h.pass hg hp) hps

/-- **After the passages of a document** the validation with defaults written out is ahead. -/
theorem ahead_passed (hg : g.Writable) (v : Validation) (t : Tree DocumentTag) :
    Ahead o ((t.passages g o.context o.checksRoot).flatMap (unsoundDefaults g o.context)).length
      (passed g o v t) (passed g o v (t.withDefaults g o.checksRoot)) := by
  have h := (Ahead.refl (o := o) v.restart rfl).foldl_pass hg
    (t.plain_passages (g := g) o.context o.checksRoot)
  rw [Nat.zero_add, ← Tree.passages_withDefaults] at h
  exact h

end Validation

end MarkupGrammar
