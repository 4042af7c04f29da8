import MarkupGrammar.Proofs.Document.Safety
import MarkupGrammar.Proofs.Document.Session
import MarkupGrammar.Proofs.Document.SoundAttribute

/-! # Switching checks off

The checks of a validation share its violations, its events and the attributes as they count. Still
none disturbs another: with a check switched off the validation is *reduced* (`Validation.Reduced`),
it has the same elements open and lacks nothing but the violations that the check has found and what
the check alone keeps. So requests succeed or fail the same way, and a report is that of all checks
without what the check has found (`serve_without`). -/

namespace MarkupGrammar

variable {g : Grammar} {o : ValidationOptions} {c : OptionalCheck}

/-- The options with a check switched off. -/
def ValidationOptions.without (o : ValidationOptions) : OptionalCheck → ValidationOptions
  | .constraints => { o with checksConstraints := false }
  | .identifiers => { o with checksIdentifiers := false }

/-- The report without what a check has found. -/
def Report.without (c : OptionalCheck) (r : Report) : Report := ⟨leaving c r.violations⟩

namespace ValidationOptions

@[simp] theorem limits_without : (o.without c).limits = o.limits := by cases c <;> rfl

@[simp] theorem checksRoot_without : (o.without c).checksRoot = o.checksRoot := by cases c <;> rfl

@[simp] theorem context_without : (o.without c).context = o.context := by cases c <;> rfl

end ValidationOptions

/-! ## Attributes -/

/-- A check of attributes that does not keep identifiers amounts to the same as one that may keep
them, without what is found by them. -/
structure AttributeCheck.IsBare (bare full : AttributeCheck) : Prop where
  effective : bare.effective = full.effective
  ids_eq_none : bare.ids? = none
  violations : bare.violations = leaving .identifiers full.violations
  constraints : leaving .constraints full.violations = full.violations

section Attributes

variable (d : ElementDeclaration) (ctx : ValueContext) (path : String)

theorem AttributeCheck.isBare_of_foundBy {effective : List EffectiveAttribute}
    {vs : List Violation} (h : FoundBy none vs) (ids? : Option Identifiers) :
    AttributeCheck.IsBare ⟨effective, vs, none⟩ ⟨effective, vs, ids?⟩ :=
  ⟨rfl, rfl, (h.leaving_eq nofun).symm, h.leaving_eq nofun⟩

theorem Grammar.isBare_checkAttribute (g : Grammar) (ids? : Option Identifiers) (a : Attribute) :
    (g.checkAttribute d ctx path none a).IsBare (g.checkAttribute d ctx path ids? a) := by
  unfold checkAttribute
  by_cases hr : a.isReserved
  · rw [if_pos hr, if_pos hr]
    exact ⟨rfl, rfl, rfl, rfl⟩
  · rw [if_neg hr, if_neg hr]
    cases g.findAttribute d a.name with
    | none =>
      refine AttributeCheck.isBare_of_foundBy ?_ ids?
      split
      · exact foundBy_nil
      · exact foundBy_singleton rfl
    | some declared =>
      dsimp only
      cases ha : declared.accepted? g.types ctx a.value with
      | none =>
        obtain ⟨cause, hkind, hcheck⟩ := declared.checkValue_of_none path ha
        rw [hcheck, hcheck]
        refine AttributeCheck.isBare_of_foundBy ?_ ids?
        exact foundBy_singleton hkind
      | some treated =>
        rw [AttributeDeclaration.checkValue_of_some ha, AttributeDeclaration.checkValue_of_some ha]
        cases ids? with
        | none => exact ⟨rfl, rfl, rfl, rfl⟩
        | some t =>
          dsimp only
          cases ht : t.enter (g.types.idRole declared.type.typeName) treated path with
          | ok t' => exact ⟨rfl, rfl, rfl, rfl⟩
          | error cause =>
            -- an identifier that is declared again is all that is left out
            have hfound : FoundBy (some .identifiers)
                [⟨cause, some a.name, some treated, some path⟩] :=
              foundBy_singleton (Identifiers.check_enter ht)
            exact ⟨rfl, rfl, hfound.leaving_eq_nil.symm, hfound.leaving_eq (by decide)⟩

theorem Grammar.isBare_checkPresent (g : Grammar) (ids? : Option Identifiers)
    (as : List Attribute) :
    (g.checkPresent d ctx path none as).IsBare (g.checkPresent d ctx path ids? as) := by
  induction as generalizing ids? with
  | nil => exact ⟨rfl, rfl, rfl, rfl⟩
  | cons a as ih =>
    have hfirst := g.isBare_checkAttribute d ctx path ids? a
    have hrest := ih (g.checkAttribute d ctx path ids? a).ids?
    rw [checkPresent, checkPresent, hfirst.ids_eq_none]
    constructor
    · exact congrArg₂ (· ++ ·) hfirst.effective hrest.effective
    · exact hrest.ids_eq_none
    · rw [leaving_append, ← hfirst.violations, ← hrest.violations]
    · rw [leaving_append, hfirst.constraints, hrest.constraints]

theorem Grammar.isBare_checkAttributes (g : Grammar) (ids? : Option Identifiers)
    (as : List Attribute) :
    (g.checkAttributes d ctx none path as).IsBare (g.checkAttributes d ctx ids? path as) := by
  have hpresent := g.isBare_checkPresent d ctx path ids? as
  have habsent := Grammar.foundBy_checkAbsent d path
    (((g.attributesOf d).map (·.2)).filter fun a => !as.any (·.name == a.name))
  unfold checkAttributes
  constructor
  · exact congrArg (· ++ _) hpresent.effective
  · exact hpresent.ids_eq_none
  · rw [leaving_append, ← hpresent.violations, habsent.leaving_eq nofun]
  · rw [leaving_append, hpresent.constraints, habsent.leaving_eq nofun]

end Attributes

/-- What the walk reports at the passage. -/
def Passage.reported : Passage → List Violation
  | .start _ _ vs | .text _ vs | .stop vs => vs

namespace Validation

variable {v w : Validation}

/-- The second validation is the first without what a check has found and what it alone keeps. -/
structure Reduced (c : OptionalCheck) (v w : Validation) : Prop where
  walk : w.walk = v.walk
  keys : c ≠ .constraints → w.keys = v.keys
  identifiers : c ≠ .identifiers → w.identifiers = v.identifiers
  violations : w.violations = leaving c v.violations

/-- A validation that has found nothing yet is reduced to itself. -/
theorem Reduced.refl (c : OptionalCheck) (h : v.violations = []) : Reduced c v v :=
  ⟨rfl, fun _ => rfl, fun _ => rfl, by rw [h]; rfl⟩

/-! ## Events -/

theorem Reduced.checkAttributes (h : Reduced c v w) (mode : Mode) (path : String)
    (as : List Attribute) :
    let full := v.checkAttributes g o mode path as
    let part := w.checkAttributes g (o.without c) mode path as
    part.effective = full.effective ∧ part.violations = leaving c full.violations ∧
      (c ≠ .identifiers → part.ids? = full.ids?) := by
  unfold Validation.checkAttributes
  rw [ValidationOptions.context_without]
  cases mode.declaration?.bind (g.elements[·]?) with
  | none =>
    refine ⟨rfl, rfl, fun hc => ?_⟩
    cases c with
    | constraints => rw [h.identifiers hc]; rfl
    | identifiers => exact absurd rfl hc
  | some d =>
    dsimp only
    have hbare := g.isBare_checkAttributes d o.context path
      (if o.checksIdentifiers then some v.identifiers else none) as
    cases c with
    | constraints =>
      rw [h.identifiers nofun]
      exact ⟨rfl, hbare.constraints.symm, fun _ => rfl⟩
    | identifiers => exact ⟨hbare.effective, hbare.violations, fun hc => absurd rfl hc⟩

/-- A step of the identity constraints, if they are checked. -/
def constrain (o : ValidationOptions) (f : PooledKeys → PooledKeys × List Violation)
    (k : PooledKeys) : PooledKeys × List Violation :=
  if o.checksConstraints then f k else (k, [])

theorem Reduced.constrained (h : Reduced c v w) {f : PooledKeys → PooledKeys × List Violation}
    (hf : ∀ k, FoundBy (some .constraints) (f k).2) :
    (c ≠ .constraints → (constrain (o.without c) f w.keys).1 = (constrain o f v.keys).1) ∧
      (constrain (o.without c) f w.keys).2 = leaving c (constrain o f v.keys).2 := by
  have hfound : FoundBy (some .constraints) (constrain o f v.keys).2 := by
    unfold constrain
    split
    · exact hf v.keys
    · exact foundBy_nil
  cases c with
  | constraints => exact ⟨fun hc => absurd rfl hc, hfound.leaving_eq_nil.symm⟩
  | identifiers =>
    rw [hfound.leaving_eq (by decide), h.keys nofun]
    exact ⟨fun _ => rfl, rfl⟩

theorem Reduced.startKeys (h : Reduced c v w) (e : Placed) (attributes : List TypedAttribute) :
    (c ≠ .constraints → (startKeys g (o.without c) w.keys e attributes).1 =
        (startKeys g o v.keys e attributes).1) ∧
      (startKeys g (o.without c) w.keys e attributes).2 =
        leaving c (startKeys g o v.keys e attributes).2 :=
  h.constrained fun k => k.foundBy_start e.mode.declaration?
    ⟨e.name, attributes, (e.declaration? g).bind (·.type?)⟩ e.path

theorem Reduced.stopKeys (h : Reduced c v w) :
    (c ≠ .constraints → (stopKeys g (o.without c) w.keys).1 = (stopKeys g o v.keys).1) ∧
      (stopKeys g (o.without c) w.keys).2 = leaving c (stopKeys g o v.keys).2 :=
  h.constrained fun k => k.keys.foundBy_stop

/-- **A passage** leaves a reduced validation reduced. -/
theorem Reduced.pass (h : Reduced c v w) {p : Passage} (hp : FoundBy none p.reported) :
    Reduced c (v.pass g o p) (w.pass g (o.without c) p) := by
  cases p with
  | start e as reported =>
    have hcontent : leaving c reported = reported := hp.leaving_eq nofun
    obtain ⟨heffective, hattributes, hids⟩ := h.checkAttributes (g := g) (o := o) e.mode e.path as
    obtain ⟨hkeys, hfound⟩ := h.startKeys (g := g) (o := o) e
      ((v.checkAttributes g o e.mode e.path as).effective.map (·.typed))
    unfold Validation.pass
    dsimp only
    rw [heffective]
    refine ⟨h.walk, hkeys, fun hc => congrArg₂ Option.getD (hids hc) (h.identifiers hc), ?_⟩
    simp only [report, leaving_append, h.violations, hcontent, hattributes, hfound]
  | text s reported =>
    have hcontent : leaving c reported = reported := hp.leaving_eq nofun
    refine ⟨h.walk, fun hc => ?_, h.identifiers, ?_⟩
    · cases c with
      | constraints => exact absurd rfl hc
      | identifiers =>
        exact congrArg (fun k => if o.checksConstraints then k.characters s else k) (h.keys hc)
    · simp only [Validation.pass, report, leaving_append, h.violations, hcontent]
  | stop reported =>
    have hcontent : leaving c reported = reported := hp.leaving_eq nofun
    obtain ⟨hkeys, hfound⟩ := h.stopKeys (g := g) (o := o)
    refine ⟨h.walk, hkeys, h.identifiers, ?_⟩
    simp only [Validation.pass, report, leaving_append, h.violations, hcontent, hfound]

theorem passage_without (o : ValidationOptions) (c : OptionalCheck) (walk : ContentWalk)
    (e : Event) : passage g (o.without c) walk e = passage g o walk e := by
  unfold passage
  rw [ValidationOptions.limits_without, ValidationOptions.checksRoot_without,
    ValidationOptions.context_without]

theorem foundBy_passage {walk next : ContentWalk} {e : Event} {p : Passage}
    (h : passage g o walk e = (.ok p, next)) : FoundBy none p.reported := by
  rcases passage_cases h with
    ⟨name, as, s, -, hs, rfl, -⟩ | ⟨s, reported, -, hs, rfl⟩ | ⟨name, reported, -, hs, rfl⟩
  · exact ContentWalk.foundBy_start hs
  · exact ContentWalk.foundBy_characters hs
  · exact ContentWalk.foundBy_stop hs

theorem Reduced.step (h : Reduced c v w) (e : Event) :
    Alike (Reduced c) (v.step g o e) (w.step g (o.without c) e) := by
  rw [step_eq, step_eq, h.walk, passage_without]
  rcases hp : passage g o v.walk e with ⟨f | p, next⟩
  · exact ⟨rfl, rfl, h.keys, h.identifiers, h.violations⟩
  · have hpass := h.pass (g := g) (o := o) (foundBy_passage hp)
    exact ⟨rfl, rfl, hpass.keys, hpass.identifiers, hpass.violations⟩

/-- The end of the document brings the report without what the check has found. -/
theorem Reduced.finish (h : Reduced c v w) :
    (w.finish g (o.without c)).1 = (v.finish g o).1.map (Report.without c) ∧
      Reduced c (v.finish g o).2 (w.finish g (o.without c)).2 := by
  obtain ⟨hkeys, hreported⟩ := h.constrained (o := o) (f := (·.finish g))
    fun k => k.keys.foundBy_finish
  have hdangling : (if (o.without c).checksIdentifiers then
        w.identifiers.dangling.map danglingViolation else []) =
      leaving c (if o.checksIdentifiers then
        v.identifiers.dangling.map danglingViolation else []) := by
    have hfound : FoundBy (some .identifiers) (if o.checksIdentifiers then
        v.identifiers.dangling.map danglingViolation else []) := by
      split
      · intro x hx
        obtain ⟨r, -, rfl⟩ := List.mem_map.mp hx
        rfl
      · exact foundBy_nil
    cases c with
    | constraints =>
      rw [hfound.leaving_eq (by decide), h.identifiers nofun]
      rfl
    | identifiers => exact hfound.leaving_eq_nil.symm
  have hdepth : w.depth = v.depth := congrArg ContentWalk.depth h.walk
  unfold Validation.finish
  rw [hdepth]
  split
  · exact ⟨rfl, h⟩
  · refine ⟨?_, h.walk, hkeys, h.identifiers, rfl⟩
    change Except.ok (⟨w.violations ++ (constrain (o.without c) (·.finish g) w.keys).2 ++ _⟩ :
      Report) = .ok ⟨leaving c (v.violations ++ (constrain o (·.finish g) v.keys).2 ++ _)⟩
    rw [leaving_append, leaving_append, ← hdangling, ← hreported, ← h.violations]

/-! ## Requests -/

/-- An event that has brought up no violation has brought up none with the check switched off. -/
theorem Reduced.outcome {next next' : Validation} (h : Reduced c v w) (h' : Reduced c next next')
    (hkept : v.violations <+: next.violations) (haccepted : v.outcome next = .accepted) :
    w.outcome next' = .accepted := by
  have hsame : v.violations = next.violations := by
    refine hkept.eq_of_length_le (Nat.not_lt.mp fun hlt => ?_)
    unfold Validation.outcome at haccepted
    rw [if_pos hlt] at haccepted
    exact nomatch haccepted
  unfold Validation.outcome
  rw [h.violations, h'.violations, hsame]
  exact if_neg (Nat.lt_irrefl _)

end Validation

/-- The second reply is the first without what a check has found. -/
structure Reply.IsWithout (c : OptionalCheck) (r r' : Reply) : Prop where
  failure : r'.answer.failure? = r.answer.failure?
  report : r'.answer.report? = r.answer.report?.map (·.map (Report.without c))
  accepted : r.answer = .outcome (.ok .accepted) → r'.answer = .outcome (.ok .accepted)
  depth : r'.depth = r.depth
  violations : r'.violations = leaving c r.violations

namespace Validation

variable {v w : Validation}

/-- **A request** has the reply without what the check has found, and leads to validations that are
related the same way. -/
theorem Reduced.respond (h : Reduced c v w) (r : Request) :
    let full := v.respond g o r
    let part := w.respond g (o.without c) r
    Reply.IsWithout c ⟨full.1, full.2.depth, full.2.violations⟩
        ⟨part.1, part.2.depth, part.2.violations⟩ ∧ Reduced c full.2 part.2 := by
  cases r with
  | start =>
    exact ⟨⟨rfl, rfl, nofun, rfl, rfl⟩, rfl, fun hc => congrArg PooledKeys.clear (h.keys hc),
      fun _ => rfl, rfl⟩
  | event e =>
    obtain ⟨hresult, hnext⟩ := h.step (g := g) (o := o) e
    have hkept := v.violations_prefix_step (g := g) (o := o) e
    refine ⟨⟨?_, rfl, fun haccepted => ?_, congrArg ContentWalk.depth hnext.walk,
      hnext.violations⟩, hnext⟩
    · rw [respond_event, respond_event, ← hresult]
      cases (v.step g o e).1 <;> rfl
    · rw [respond_event] at haccepted ⊢
      rw [← hresult]
      cases hr : (v.step g o e).1 with
      | error f =>
        rw [hr] at haccepted
        exact nomatch haccepted
      | ok u =>
        rw [hr] at haccepted
        have houtcome := Except.ok.inj (Answer.outcome.inj haccepted)
        exact congrArg (Answer.outcome ∘ .ok) (h.outcome hnext hkept houtcome)
  | finish =>
    obtain ⟨hresult, hnext⟩ := h.finish (g := g) (o := o)
    refine ⟨⟨?_, congrArg some hresult, nofun, congrArg ContentWalk.depth hnext.walk,
      hnext.violations⟩, hnext⟩
    rw [respond_finish, respond_finish, hresult]
    cases (v.finish g o).1 <;> rfl

theorem Reduced.serve (h : Reduced c v w) (rs : List Request) :
    List.Forall₂ (Reply.IsWithout c) (v.serve g o rs).1 (w.serve g (o.without c) rs).1 := by
  induction rs generalizing v w with
  | nil => exact .nil
  | cons r rs ih =>
    obtain ⟨hreply, hnext⟩ := h.respond (g := g) (o := o) r
    exact .cons hreply (ih hnext)

/-- **Switching a check off filters the report.** All requests succeed or fail with a check switched
off as they do with it, and all violations, those of reports included, are the same without those
that the check has found, in the same order. -/
theorem serve_without (g : Grammar) (o : ValidationOptions) (c : OptionalCheck) :
    (∀ rs : List Request, List.Forall₂ (Reply.IsWithout c) (({} : Validation).serve g o rs).1
      (({} : Validation).serve g (o.without c) rs).1) ∧
    ∀ (v : Validation) (es : List Event),
      (v.validate g (o.without c) es).1 = (v.validate g o es).1.map (Report.without c) := by
  refine ⟨fun rs => (Reduced.refl c rfl).serve rs, fun v es => ?_⟩
  rw [validate_eq_conclude, validate_eq_conclude]
  have hrun : Alike (Reduced c) (v.restart.run g o es) (v.restart.run g (o.without c) es) :=
    .run (fun h e => h.step e) (.refl c rfl) es
  rcases hrun.cases with ⟨f, next, next', hv, hw⟩ | ⟨next, next', hv, hw, hnext⟩
  · rw [hv, hw]
    rfl
  · rw [hv, hw]
    exact hnext.finish.1

end Validation

end MarkupGrammar
