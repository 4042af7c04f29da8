import MarkupGrammar.Document.Validation
import MarkupGrammar.Proofs.Document.Passage
import MarkupGrammar.Proofs.Keys.Reading
import MarkupGrammar.Proofs.Outcome

/-! # What violations are found by

The check of identity constraints and that of identifiers can be switched off. Each finds violations
of kinds of its own, and what the check of content finds is of neither. -/

namespace MarkupGrammar

/-! ## Kinds of violations -/

section

variable {g : Grammar} {ctx : ValueContext}

/-- A check that can be switched off. -/
inductive OptionalCheck where
  | constraints
  | identifiers
  deriving DecidableEq, Repr

/-- The check that finds the violations of a kind, if it can be switched off. -/
def Violation.Kind.check? : Violation.Kind → Option OptionalCheck
  | duplicateId | danglingIdref => some .identifiers
  | duplicateKey | incompleteKey | fieldMultipleMatch | danglingKeyref => some .constraints
  | unexpectedElement | incompleteContent | elementNotAllowed | textNotAllowed | undeclaredElement
  | undeclaredAttribute | missingAttribute | invalidAttributeValue | fixedValueMismatch
  | invalidValue | rootMismatch => none

/-- All of the violations are found by the given check. -/
def FoundBy (c? : Option OptionalCheck) (vs : List Violation) : Prop :=
  ∀ v ∈ vs, v.kind.check? = c?

section FoundBy

variable {c? : Option OptionalCheck} {vs ws : List Violation}

theorem foundBy_nil : FoundBy c? [] := fun _ hv => absurd hv List.not_mem_nil

theorem foundBy_singleton {v : Violation} (h : v.kind.check? = c?) : FoundBy c? [v] :=
  fun _ hw => List.mem_singleton.mp hw ▸ h

theorem FoundBy.append (h : FoundBy c? vs) (h' : FoundBy c? ws) : FoundBy c? (vs ++ ws) :=
  fun v hv => (List.mem_append.mp hv).elim (h v) (h' v)

theorem foundBy_flatMap {α : Type} {xs : List α} {f : α → List Violation}
    (h : ∀ x ∈ xs, FoundBy c? (f x)) : FoundBy c? (xs.flatMap f) := fun v hv => by
  obtain ⟨x, hx, hv⟩ := List.mem_flatMap.mp hv
  exact h x hx v hv

end FoundBy

/-! ## Violations that a check has not found -/

/-- The violations that the check has not found. -/
def leaving (c : OptionalCheck) (vs : List Violation) : List Violation :=
  vs.filter (·.kind.check? ≠ some c)

section leaving

variable {c : OptionalCheck} {vs : List Violation}

@[simp] theorem leaving_append (c : OptionalCheck) (vs ws : List Violation) :
    leaving c (vs ++ ws) = leaving c vs ++ leaving c ws := List.filter_append _ _

theorem FoundBy.leaving_eq_nil (h : FoundBy (some c) vs) : leaving c vs = [] :=
  List.filter_eq_nil_iff.mpr fun v hv => by simp [h v hv]

theorem FoundBy.leaving_eq {c? : Option OptionalCheck} (h : FoundBy c? vs) (hc : c? ≠ some c) :
    leaving c vs = vs :=
  List.filter_eq_self.mpr fun v hv => by simpa [h v hv] using hc

end leaving

/-! ## Content -/

namespace ContentWalk

theorem foundBy_rootMode (checksRoot : Bool) (name : Name) (path : String) :
    FoundBy none (rootMode g checksRoot name path).2 := by
  unfold rootMode
  cases g.description with
  | schema _ =>
    dsimp only
    split
    · exact foundBy_nil
    · exact foundBy_nil.append (foundBy_singleton rfl)
  | documentType expected =>
    dsimp only
    have hmismatch : FoundBy none (if checksRoot && expected != name.localPart then
        [⟨.otherRoot name expected, some name, none, some path⟩] else []) := by
      split
      · exact foundBy_singleton rfl
      · exact foundBy_nil
    split
    · exact hmismatch
    · exact hmismatch.append (foundBy_singleton rfl)

theorem foundBy_wildcardMode (p : Processing) (name : Name) (path : String) :
    FoundBy none (wildcardMode g p name path).2 := by
  unfold wildcardMode
  dsimp only
  split
  · exact foundBy_nil
  · exact foundBy_nil
  · exact foundBy_nil
  · exact foundBy_singleton rfl

theorem foundBy_answeredMode (d : ElementDeclaration) (name : Name) (path : String) (m : Match) :
    FoundBy none (answeredMode g d name path m).2 := by
  unfold answeredMode
  split
  · exact foundBy_wildcardMode _ name path
  · exact foundBy_nil
  · dsimp only
    split
    · exact foundBy_singleton rfl
    · exact foundBy_nil
  · exact foundBy_singleton rfl
  · exact foundBy_singleton rfl

theorem foundBy_childMode {parent : OpenElement} {name : Name} {path : String}
    {x : Mode × ModelState × List Violation} (h : childMode g parent name path = .ok x) :
    FoundBy none x.2.2 := by
  unfold childMode at h
  split at h
  · obtain rfl := Except.ok.inj h
    exact foundBy_nil
  · obtain rfl := Except.ok.inj h
    exact foundBy_nil
  · obtain ⟨d, -, h⟩ := of_bind_eq_ok h
    obtain rfl := Except.ok.inj h
    exact foundBy_answeredMode _ _ _ _

theorem foundBy_start {w : ContentWalk} {limits : Limits} {checksRoot : Bool} {name : Name}
    {s : Start} (h : w.start g limits checksRoot name = .ok s) : FoundBy none s.violations := by
  unfold start at h
  obtain ⟨-, -, h⟩ := of_bind_eq_ok h
  split at h
  · obtain ⟨state, -, h⟩ := of_bind_eq_ok h
    obtain rfl := Except.ok.inj h
    exact foundBy_rootMode _ _ _
  · obtain ⟨x, hchild, h⟩ := of_bind_eq_ok h
    obtain ⟨state, -, h⟩ := of_bind_eq_ok h
    obtain rfl := Except.ok.inj h
    exact foundBy_childMode hchild

theorem foundBy_receive (d : ElementDeclaration) (e : OpenElement) (text : String) :
    FoundBy none (receive d e text).2 := by
  unfold receive
  dsimp only
  split
  · exact foundBy_nil
  · split
    · exact foundBy_nil
    · exact foundBy_singleton rfl

theorem foundBy_characters {w : ContentWalk} {text : String} {x : ContentWalk × List Violation}
    (h : w.characters g text = .ok x) : FoundBy none x.2 := by
  unfold characters at h
  split at h
  · obtain rfl := Except.ok.inj h
    exact foundBy_nil
  · split at h
    · obtain rfl := Except.ok.inj h
      exact foundBy_nil
    · obtain rfl := Except.ok.inj h
      exact foundBy_nil
    · obtain ⟨d, -, h⟩ := of_bind_eq_ok h
      obtain rfl := Except.ok.inj h
      exact foundBy_receive _ _ _

theorem foundBy_checkText (d : ElementDeclaration) (e : OpenElement) :
    FoundBy none (checkText g ctx d e) := by
  unfold checkText
  split
  · exact foundBy_nil
  · split
    · exact foundBy_singleton rfl
    · split
      · exact foundBy_nil
      · split
        · exact foundBy_nil
        · exact foundBy_singleton rfl

theorem foundBy_checkContent (d : ElementDeclaration) (e : OpenElement) :
    FoundBy none (checkContent g ctx d e) := by
  unfold checkContent
  refine FoundBy.append ?_ ?_
  · split
    · exact foundBy_nil
    · exact foundBy_singleton rfl
  · split
    · exact foundBy_checkText d e
    · exact foundBy_nil

theorem foundBy_stop {w w' : ContentWalk} {name : Name} {vs : List Violation}
    (h : w.stop g ctx name = (.ok vs, w')) : FoundBy none vs := by
  unfold stop at h
  split at h
  · exact nomatch (Prod.mk.inj h).1
  · have hclosed := (Prod.mk.inj h).1
    unfold close at hclosed
    split at hclosed
    · exact nomatch hclosed
    · split at hclosed
      · obtain rfl := Except.ok.inj hclosed
        exact foundBy_nil
      · obtain rfl := Except.ok.inj hclosed
        exact foundBy_nil
      · obtain ⟨d, -, hclosed⟩ := of_bind_eq_ok hclosed
        obtain rfl := Except.ok.inj hclosed
        exact foundBy_checkContent _ _

end ContentWalk

/-! ## Attributes -/

/-- The identifiers of a document find nothing but identifiers that are declared again. -/
theorem Identifiers.check_enter {t : Identifiers} {role : IdRole} {literal path : String}
    {cause : Violation.Cause} (h : t.enter role literal path = .error cause) :
    cause.kind.check? = some .identifiers := by
  unfold enter at h
  split at h
  · exact nomatch h
  · split at h
    · exact nomatch h
    · obtain rfl := Except.error.inj h
      rfl
  · exact nomatch h
  · exact nomatch h

theorem Grammar.foundBy_checkAbsent (d : ElementDeclaration) (path : String)
    (as : List AttributeDeclaration) :
    FoundBy none ((as.map (checkAbsent d path)).flatMap (·.2)) := by
  refine foundBy_flatMap fun x hx => ?_
  obtain ⟨a, -, rfl⟩ := List.mem_map.mp hx
  unfold checkAbsent
  split
  · exact foundBy_singleton rfl
  · split
    · exact foundBy_nil
    · exact foundBy_nil

/-! ## Identity constraints -/

theorem Selection.foundBy_advance (s : Selection) (types : TypeTable)
    (step : Matcher → Option Selected × Matcher) :
    FoundBy (some .constraints) (s.advance types step).2 := fun _ hv => by
  rw [Selection.kind_advance hv]
  rfl

theorem Selection.foundBy_advances {α : Type} (selection : α → Selection) (xs : List α)
    (types : TypeTable) (step : Matcher → Option Selected × Matcher) :
    FoundBy (some .constraints)
      ((xs.map fun x => (selection x).advance types step).flatMap (·.2)) := by
  refine foundBy_flatMap fun y hy => ?_
  obtain ⟨x, -, rfl⟩ := List.mem_map.mp hy
  exact Selection.foundBy_advance _ _ _

namespace Keys

theorem foundBy_closeSelection (k : Keys) (s : Selection) :
    FoundBy (some .constraints) (k.closeSelection s).2 := by
  unfold closeSelection closeComplete
  dsimp only
  split
  · split
    · exact foundBy_nil
    · split
      · exact foundBy_nil
      · exact foundBy_nil
      · split
        · exact foundBy_singleton rfl
        · exact foundBy_nil
  · split
    · exact foundBy_singleton rfl
    · exact foundBy_nil

theorem foundBy_closeSelections (k : Keys) (ss : List Selection) :
    FoundBy (some .constraints) (k.closeSelections ss).2 := by
  induction ss generalizing k with
  | nil => exact foundBy_nil
  | cons s ss ih => exact (k.foundBy_closeSelection s).append (ih _)

theorem foundBy_stop (k : Keys) : FoundBy (some .constraints) (k.stop g).2 := by
  unfold stop
  split
  · exact foundBy_nil
  · exact (Selection.foundBy_advances id _ _ _).append (foundBy_closeSelections _ _)

theorem foundBy_finish (k : Keys) : FoundBy (some .constraints) (k.finish g).2 := fun v hv => by
  obtain ⟨r, -, rfl⟩ := List.mem_map.mp hv
  rfl

end Keys

theorem PooledKeys.foundBy_start (k : PooledKeys) (element? : Option Nat) (tag : TagEvent)
    (path : String) : FoundBy (some .constraints) (k.start g element? tag path).2 :=
  (Selection.foundBy_advances id _ _ _).append (Selection.foundBy_advances id _ _ _)

end

/-! ## Violations that do not concern identifiers

The check of content and that of the identity constraints report nothing that concerns identifiers:
their violations are *plain*. -/

variable {g : Grammar} {ctx : ValueContext} {e : Placed} {names : List Name} {texts : List String}

/-- The violations of a kind. -/
def violationsOf (k : Violation.Kind) (vs : List Violation) : List Violation :=
  vs.filter (·.kind = k)

@[simp] theorem violationsOf_append (k : Violation.Kind) (vs ws : List Violation) :
    violationsOf k (vs ++ ws) = violationsOf k vs ++ violationsOf k ws := List.filter_append _ _

/-- No violation concerns identifiers. -/
def Plain (vs : List Violation) : Prop :=
  ∀ v ∈ vs, v.kind ≠ .duplicateId ∧ v.kind ≠ .danglingIdref

theorem plain_nil : Plain [] := fun _ hv => absurd hv List.not_mem_nil

/-- What no check of identifiers has found is plain. -/
theorem FoundBy.plain {c? : Option OptionalCheck} {vs : List Violation} (h : FoundBy c? vs)
    (hc : c? ≠ some .identifiers) : Plain vs := by
  intro v hv
  have hkind := h v hv
  constructor
  · intro hdup
    rw [hdup] at hkind
    exact hc hkind.symm
  · intro hdangling
    rw [hdangling] at hkind
    exact hc hkind.symm

theorem plain_singleton {v : Violation} (h : v.kind.check? = none) : Plain [v] :=
  (foundBy_singleton h).plain (by decide)

theorem Plain.append {vs ws : List Violation} (h : Plain vs) (h' : Plain ws) : Plain (vs ++ ws) :=
  fun v hv => (List.mem_append.mp hv).elim (h v) (h' v)

theorem Plain.duplicates_eq_nil {vs : List Violation} (h : Plain vs) :
    violationsOf .duplicateId vs = [] :=
  List.filter_eq_nil_iff.mpr fun v hv => by simpa using (h v hv).1

theorem Plain.danglings_eq_nil {vs : List Violation} (h : Plain vs) :
    violationsOf .danglingIdref vs = [] :=
  List.filter_eq_nil_iff.mpr fun v hv => by simpa using (h v hv).2

/-! ## Content -/

theorem Placed.plain_child (e : Placed) (names : List Name) (name : Name) :
    Plain (e.child g names name).2 := by
  unfold child
  dsimp only
  split
  · exact plain_nil
  · exact plain_nil
  · exact plain_nil
  · exact (ContentWalk.foundBy_answeredMode _ _ _ _).plain (by decide)

theorem Placed.plain_root (checksRoot : Bool) (name : Name) :
    Plain (Placed.root g checksRoot name).2 :=
  (ContentWalk.foundBy_rootMode checksRoot name _).plain (by decide)

theorem Placed.plain_textReport (s : String) : Plain (e.textReport g texts s) := by
  unfold textReport
  split
  · exact plain_nil
  · split
    · exact plain_singleton rfl
    · exact plain_nil

theorem Placed.plain_endReport : Plain (e.endReport g ctx names texts) := by
  unfold endReport
  split
  · exact plain_nil
  · exact (ContentWalk.foundBy_checkContent _ _).plain (by decide)

/-! ## Passages -/

/-- What the walk reports at the passage is plain. -/
def Passage.IsPlain : Passage → Prop
  | .start _ _ reported | .text _ reported | .stop reported => Plain reported

theorem Forest.plain_passages (f : Forest DocumentTag) :
    ∀ p ∈ f.passages g ctx e names texts, p.IsPlain := by
  induction f generalizing e names texts with
  | nil => exact fun _ hp => absurd hp List.not_mem_nil
  | piece s rest ih => exact List.forall_mem_cons.mpr ⟨Placed.plain_textReport s, ih⟩
  | element l inner rest ihi ihr =>
    refine List.forall_mem_cons.mpr ⟨e.plain_child names l.name, ?_⟩
    refine List.forall_mem_append.mpr ⟨ihi, ?_⟩
    exact List.forall_mem_cons.mpr ⟨Placed.plain_endReport, ihr⟩

theorem Tree.plain_passages (ctx : ValueContext) (checksRoot : Bool) (t : Tree DocumentTag) :
    ∀ p ∈ t.passages g ctx checksRoot, p.IsPlain := by
  refine List.forall_mem_cons.mpr ⟨Placed.plain_root checksRoot t.label.name,
    List.forall_mem_append.mpr ⟨t.inner.plain_passages, ?_⟩⟩
  exact List.forall_mem_singleton.mpr Placed.plain_endReport

/-! ## Identity constraints -/

theorem Keys.plain_stop (k : Keys) : Plain (k.stop g).2 := k.foundBy_stop.plain (by decide)

theorem Keys.plain_finish (k : Keys) : Plain (k.finish g).2 := k.foundBy_finish.plain (by decide)

theorem PooledKeys.plain_start (k : PooledKeys) (element? : Option Nat) (tag : TagEvent)
    (path : String) : Plain (k.start g element? tag path).2 :=
  (k.foundBy_start element? tag path).plain (by decide)

end MarkupGrammar
