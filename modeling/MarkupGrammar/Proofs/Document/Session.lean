import MarkupGrammar.Document.Session
import MarkupGrammar.Proofs.Keys.Pool

/-! # Documents do not depend on those before

Two validations *agree* if they differ in their pools of matchers at most, and the matchers in the
pools fit their uses. A request has the same answer from both, and they agree after it
(`Agrees.respond`). A document that begins makes any validation agree with a new one, so the replies
to what follows are those of a new validation (`serve_append_start`). -/

namespace MarkupGrammar

/-- The report that has been asked for, or why there is none. -/
def Answer.report? : Answer → Option (Except Failure Report)
  | .report result => some result
  | .started | .outcome _ => none

namespace Validation

variable {g : Grammar} {o : ValidationOptions} {v w : Validation}

/-- The validations are the same but for their pools, and these are sound. -/
structure Agrees (g : Grammar) (v w : Validation) : Prop where
  walk : v.walk = w.walk
  keys : v.keys.keys = w.keys.keys
  identifiers : v.identifiers = w.identifiers
  violations : v.violations = w.violations
  left : v.keys.Sound g
  right : w.keys.Sound g

/-- The pool makes no difference to two states of the keys that are the same otherwise. -/
theorem start_congr {k k' : PooledKeys} (hk : k.keys = k'.keys) (h : k.Sound g) (h' : k'.Sound g)
    (element? : Option Nat) (e : TagEvent) (path : String) :
    (k.start g element? e path).1.keys = (k'.start g element? e path).1.keys ∧
      (k.start g element? e path).2 = (k'.start g element? e path).2 := by
  have heq := (h.start_eq element? e path).1
  rw [hk, ← (h'.start_eq element? e path).1] at heq
  exact Prod.mk.inj heq

/-! ## Events -/

/-- The results of a step agree: both fail for the same reason, or lead to validations that
agree. -/
def AgreeResults (g : Grammar) : Except Failure Validation → Except Failure Validation → Prop
  | .ok v, .ok w => Agrees g v w
  | .error f, .error f' => f = f'
  | _, _ => False

theorem Agrees.start (h : Agrees g v w) (name : Name) (as : List Attribute) :
    AgreeResults g (v.start g o name as) (w.start g o name as) := by
  obtain ⟨walk, k, ids, vs⟩ := v
  obtain ⟨walk', k', ids', vs'⟩ := w
  obtain ⟨rfl, hk, rfl, rfl, hleft, hright⟩ := h
  unfold Validation.start
  cases hs : walk.start g o.limits o.checksRoot name with
  | error f => rfl
  | ok s =>
    cases hc : o.checksConstraints with
    | false => exact ⟨rfl, hk, rfl, rfl, hleft, hright⟩
    | true =>
      obtain ⟨hkeys, hreported⟩ := start_congr hk hleft hright s.mode.declaration?
        ⟨name, (checkAttributes g o ⟨walk, k, ids, vs⟩ s.mode s.path as).effective.map (·.typed),
          (s.mode.declaration?.bind (g.elements[·]?)).bind (·.type?)⟩ s.path
      refine ⟨rfl, hkeys, rfl, ?_, hleft.start _ _ _, hright.start _ _ _⟩
      exact congrArg (fun reported => vs ++ (s.violations ++ _ ++ reported)) hreported

theorem Agrees.characters (h : Agrees g v w) (text : String) :
    AgreeResults g (v.characters g o text) (w.characters g o text) := by
  obtain ⟨walk, k, ids, vs⟩ := v
  obtain ⟨walk', k', ids', vs'⟩ := w
  obtain ⟨rfl, hk, rfl, rfl, hleft, hright⟩ := h
  unfold Validation.characters
  cases hs : walk.characters g text with
  | error f => rfl
  | ok x =>
    cases hc : o.checksConstraints with
    | false => exact ⟨rfl, hk, rfl, rfl, hleft, hright⟩
    | true =>
      have hkeys : k.keys.characters text = k'.keys.characters text :=
        congrArg (·.characters text) hk
      exact ⟨rfl, hkeys, rfl, rfl, hleft.characters text, hright.characters text⟩

theorem Agrees.settle (h : Agrees g v w) {r r' : Except Failure Validation}
    (hr : AgreeResults g r r') :
    (v.settle r).1 = (w.settle r').1 ∧ Agrees g (v.settle r).2 (w.settle r').2 := by
  cases r with
  | ok next =>
    cases r' with
    | ok next' => exact ⟨rfl, hr⟩
    | error f' => exact hr.elim
  | error f =>
    cases r' with
    | ok next' => exact hr.elim
    | error f' => exact ⟨congrArg Except.error hr, h⟩

theorem Agrees.stop (h : Agrees g v w) (name : Name) :
    (v.stop g o name).1 = (w.stop g o name).1 ∧
      Agrees g (v.stop g o name).2 (w.stop g o name).2 := by
  obtain ⟨walk, k, ids, vs⟩ := v
  obtain ⟨walk', k', ids', vs'⟩ := w
  obtain ⟨rfl, hk, rfl, rfl, hleft, hright⟩ := h
  unfold Validation.stop
  cases hs : walk.stop g o.context name with
  | mk r next =>
    cases r with
    | error f => exact ⟨rfl, rfl, hk, rfl, rfl, hleft, hright⟩
    | ok violations =>
      cases hc : o.checksConstraints with
      | false => exact ⟨rfl, rfl, hk, rfl, rfl, hleft, hright⟩
      | true =>
        have hstop : k.keys.stop g = k'.keys.stop g := congrArg (·.stop g) hk
        refine ⟨rfl, rfl, congrArg Prod.fst hstop, rfl, ?_, hleft.stop, hright.stop⟩
        exact congrArg (fun x => vs ++ (violations ++ x.2)) hstop

theorem Agrees.step (h : Agrees g v w) (e : Event) : (v.step g o e).1 = (w.step g o e).1 ∧
    Agrees g (v.step g o e).2 (w.step g o e).2 := by
  cases e with
  | start name as => exact h.settle (h.start name as)
  | characters text => exact h.settle (h.characters text)
  | stop name => exact h.stop name

theorem Agrees.finish (h : Agrees g v w) : (v.finish g o).1 = (w.finish g o).1 ∧
    Agrees g (v.finish g o).2 (w.finish g o).2 := by
  obtain ⟨walk, k, ids, vs⟩ := v
  obtain ⟨walk', k', ids', vs'⟩ := w
  obtain ⟨rfl, hk, rfl, rfl, hleft, hright⟩ := h
  unfold Validation.finish
  by_cases hd : walk.depth > 0
  · have hdepth (k : PooledKeys) : Validation.depth ⟨walk, k, ids, vs⟩ > 0 := hd
    rw [if_pos (hdepth k), if_pos (hdepth k')]
    exact ⟨rfl, rfl, hk, rfl, rfl, hleft, hright⟩
  · have hdepth (k : PooledKeys) : ¬ Validation.depth ⟨walk, k, ids, vs⟩ > 0 := hd
    rw [if_neg (hdepth k), if_neg (hdepth k')]
    cases hc : o.checksConstraints with
    | false => exact ⟨rfl, rfl, hk, rfl, rfl, hleft, hright⟩
    | true =>
      have hfinish : k.keys.finish g = k'.keys.finish g := congrArg (·.finish g) hk
      refine ⟨?_, rfl, congrArg Prod.fst hfinish, rfl, rfl, hleft.finish, hright.finish⟩
      exact congrArg
        (fun x : Keys × List Violation => (.ok ⟨vs ++ x.2 ++
          if o.checksIdentifiers then ids.dangling.map danglingViolation else []⟩ :
          Except Failure Report)) hfinish

/-! ## Requests -/

theorem respond_event (v : Validation) (e : Event) : v.respond g o (.event e) =
    (.outcome ((v.step g o e).1.map fun _ => v.outcome (v.step g o e).2), (v.step g o e).2) :=
  rfl

theorem respond_finish (v : Validation) :
    v.respond g o .finish = (.report (v.finish g o).1, (v.finish g o).2) := rfl

/-- A validation that begins a document is a new one, but for its pool. -/
theorem agrees_restart (hv : v.keys.Sound g) (hw : w.keys.Sound g) :
    Agrees g v.restart w.restart :=
  ⟨rfl, rfl, rfl, rfl, hv.clear, hw.clear⟩

theorem outcome_congr {next next' : Validation} (h : v.violations = w.violations)
    (h' : next.violations = next'.violations) : v.outcome next = w.outcome next' := by
  unfold outcome
  rw [h, h']

/-- **Validations that agree give the same answers** and agree afterwards. -/
theorem Agrees.respond (h : Agrees g v w) (r : Request) :
    (v.respond g o r).1 = (w.respond g o r).1 ∧
      Agrees g (v.respond g o r).2 (w.respond g o r).2 := by
  cases r with
  | start => exact ⟨rfl, agrees_restart h.left h.right⟩
  | event e =>
    obtain ⟨hresult, hnext⟩ := h.step e (o := o)
    refine ⟨?_, hnext⟩
    rw [respond_event, respond_event, hresult, outcome_congr h.violations hnext.violations]
  | finish =>
    obtain ⟨hresult, hnext⟩ := h.finish (o := o)
    exact ⟨congrArg Answer.report hresult, hnext⟩

theorem Agrees.serve (h : Agrees g v w) (rs : List Request) :
    (v.serve g o rs).1 = (w.serve g o rs).1 := by
  induction rs generalizing v w with
  | nil => rfl
  | cons r rs ih =>
    obtain ⟨hanswer, hnext⟩ := h.respond r (o := o)
    unfold Validation.serve
    dsimp only
    rw [hanswer, ih hnext, depth, hnext.walk, hnext.violations]
    rfl

/-- The pool stays sound, whatever is requested. -/
theorem sound_serve (h : v.keys.Sound g) (rs : List Request) : (v.serve g o rs).2.keys.Sound g := by
  induction rs generalizing v with
  | nil => exact h
  | cons r rs ih =>
    have hagrees : Agrees g v v := ⟨rfl, rfl, rfl, rfl, h, h⟩
    exact ih (hagrees.respond r).2.left

theorem serve_append (v : Validation) (rs rs' : List Request) : v.serve g o (rs ++ rs') =
    ((v.serve g o rs).1 ++ ((v.serve g o rs).2.serve g o rs').1,
      ((v.serve g o rs).2.serve g o rs').2) := by
  induction rs generalizing v with
  | nil => rfl
  | cons r rs ih =>
    rw [List.cons_append, Validation.serve, Validation.serve]
    dsimp only
    rw [ih]
    rfl

/-! ## Runs -/

theorem settle_of_error {r : Except Failure Validation} {f : Failure}
    (h : (v.settle r).1 = .error f) : v.settle r = (.error f, v) := by
  cases r with
  | ok next => exact nomatch h
  | error f' => exact Prod.ext h rfl

/-- Follows events after others, unless one of the others has failed. -/
def proceed (g : Grammar) (o : ValidationOptions) (es : List Event) :
    Except Failure Unit × Validation → Except Failure Unit × Validation
  | (.ok (), v) => v.run g o es
  | (.error f, v) => (.error f, v)

/-- Ends the document after events, unless one of them has failed. -/
def conclude (g : Grammar) (o : ValidationOptions) :
    Except Failure Unit × Validation → Except Failure Report × Validation
  | (.ok (), v) => v.finish g o
  | (.error f, v) => (.error f, v)

theorem run_cons_eq (v : Validation) (e : Event) (es : List Event) :
    v.run g o (e :: es) = proceed g o es (v.step g o e) := by
  rw [run]
  rcases v.step g o e with ⟨f | ⟨⟩, next⟩ <;> rfl

theorem run_singleton (v : Validation) (e : Event) : v.run g o [e] = v.step g o e := by
  rw [run_cons_eq]
  rcases v.step g o e with ⟨f | ⟨⟩, next⟩ <;> rfl

theorem run_append (v : Validation) (es es' : List Event) :
    v.run g o (es ++ es') = proceed g o es' (v.run g o es) := by
  induction es generalizing v with
  | nil => rfl
  | cons e es ih =>
    rw [List.cons_append, run_cons_eq, run_cons_eq]
    rcases v.step g o e with ⟨f | ⟨⟩, next⟩
    · rfl
    · exact ih next

theorem validate_eq_conclude (v : Validation) (es : List Event) :
    v.validate g o es = conclude g o (v.restart.run g o es) := by
  unfold validate
  rcases v.restart.run g o es with ⟨f | ⟨⟩, next⟩ <;> rfl

section Alike

variable {R : Validation → Validation → Prop} {g' : Grammar} {o' : ValidationOptions}

/-- The results are the same, and the validations they come with are related. -/
def Alike (R : Validation → Validation → Prop) (x y : Except Failure Unit × Validation) : Prop :=
  x.1 = y.1 ∧ R x.2 y.2

theorem Alike.cases {x y : Except Failure Unit × Validation} (h : Alike R x y) :
    (∃ f v w, x = (.error f, v) ∧ y = (.error f, w)) ∨
      ∃ v w, x = (.ok (), v) ∧ y = (.ok (), w) ∧ R v w := by
  obtain ⟨result, v⟩ := x
  obtain ⟨result', w⟩ := y
  obtain ⟨hresult, hnext⟩ := h
  obtain rfl : result = result' := hresult
  cases result with
  | error f => exact .inl ⟨f, v, w, rfl, rfl⟩
  | ok u => exact .inr ⟨v, w, rfl, rfl, hnext⟩

theorem Alike.trans (htrans : ∀ {u v w}, R u v → R v w → R u w)
    {x y z : Except Failure Unit × Validation} (h : Alike R x y) (h' : Alike R y z) :
    Alike R x z :=
  ⟨h.1.trans h'.1, htrans h.2 h'.2⟩

/-- **What each event keeps, a run keeps.** -/
theorem Alike.run (hstep : ∀ {v w}, R v w → ∀ e, Alike R (v.step g o e) (w.step g' o' e))
    (h : R v w) (es : List Event) : Alike R (v.run g o es) (w.run g' o' es) := by
  induction es generalizing v w with
  | nil => exact ⟨rfl, h⟩
  | cons e es ih =>
    rw [run_cons_eq, run_cons_eq]
    have hfirst := hstep h e
    rcases hfirst.cases with ⟨f, v', w', hv, hw⟩ | ⟨v', w', hv, hw, hnext⟩
    · rw [hv, hw] at hfirst ⊢
      exact hfirst
    · rw [hv, hw]
      exact ih hnext

theorem Alike.proceed (hstep : ∀ {v w}, R v w → ∀ e, Alike R (v.step g o e) (w.step g' o' e))
    {x y : Except Failure Unit × Validation} (h : Alike R x y) (es : List Event) :
    Alike R (proceed g o es x) (proceed g' o' es y) := by
  rcases h.cases with ⟨f, v, w, rfl, rfl⟩ | ⟨v, w, rfl, rfl, hnext⟩
  · exact h
  · exact .run hstep hnext es

/-- The reports are the same to an observer to whom those of related validations are. -/
theorem Alike.conclude {φ φ' : Report → Report}
    (hfinish : ∀ {v w}, R v w → (v.finish g o).1.map φ = (w.finish g' o').1.map φ')
    {x y : Except Failure Unit × Validation} (h : Alike R x y) :
    (conclude g o x).1.map φ = (conclude g' o' y).1.map φ' := by
  rcases h.cases with ⟨f, v, w, rfl, rfl⟩ | ⟨v, w, rfl, rfl, hnext⟩
  · rfl
  · exact hfinish hnext

end Alike

/-- **Documents are isolated.** Whatever has been requested of a validation, with whatever failures
and with documents left at any point, the replies from the begin of a document on are those that a
new validation gives. -/
theorem serve_append_start (g : Grammar) (o : ValidationOptions) (before after : List Request) :
    (({} : Validation).serve g o (before ++ .start :: after)).1 =
      (({} : Validation).serve g o before).1 ++
        (({} : Validation).serve g o (.start :: after)).1 := by
  have hnew : ({} : Validation).keys.Sound g := PooledKeys.sound_empty
  have hbefore := sound_serve (o := o) hnew before
  have hrestart := agrees_restart hbefore hnew
  have hafter := hrestart.serve (o := o) after
  rw [serve_append]
  refine congrArg (_ ++ ·) ?_
  exact congrArg (List.cons (⟨.started, 0, []⟩ : Reply)) hafter

end Validation

end MarkupGrammar
