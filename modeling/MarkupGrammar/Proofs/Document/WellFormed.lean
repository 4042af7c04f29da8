import MarkupGrammar.Proofs.Document.OpenElement
import MarkupGrammar.Proofs.Grammar.WellFormed

/-! # Walks that stay in the grammar

What a walk refers to is there: the declarations of the open elements, and in the state of each
content model the state of its automaton or one count for each member of its all-group. Every
event keeps it so, whether it fails or not, and an event fails only for the depth or for tags that
do not match (`ContentWalk.WellFormed.start`, `ContentWalk.WellFormed.characters`,
`ContentWalk.WellFormed.stop`). -/

namespace MarkupGrammar

variable {g : Grammar}

/-! ## States of content models -/

theorem Automaton.WellFormed.target_lt_of_mem_choices {a : Automaton} (h : a.WellFormed)
    {state : Nat} {x : Symbol × Nat} (hx : x ∈ a.choices state) : x.2 < a.states.size := by
  unfold Automaton.choices at hx
  split at hx
  · rename_i st hst
    obtain ⟨y, hy, hx⟩ := List.mem_filterMap.mp hx
    obtain ⟨symbol, -, rfl⟩ := Option.map_eq_some_iff.mp hx
    exact h.target_lt st (Array.mem_of_getElem? hst) y hy
  · exact absurd hx List.not_mem_nil

namespace Model

variable {m : Model} {s : ModelState}

/-- The state belongs to the model, and what it refers to is there. -/
def Fits : Model → ModelState → Prop
  | empty, .empty _ => True
  | any, .any => True
  | mixed _, .mixed => True
  | simple, .simple => True
  | children a, .children state => state < a.states.size
  | all g, .all counts => counts.length = g.members.length
  | _, _ => False

theorem fits_start (h : m.WellFormed) : m.Fits m.start := by
  cases m with
  | children a => exact h.states_pos
  | all group => exact List.length_map _
  | _ => trivial

/-- A child leads to a state that is there. -/
theorem Fits.accept (hs : m.Fits s) (h : m.WellFormed) (c : Option Comparator) (name : Name) :
    m.Fits (m.accept c s name).2 := by
  cases m with
  | children a =>
    cases s with
    | children state =>
      unfold Model.accept
      dsimp only
      split
      · rename_i symbol target htarget
        exact h.target_lt_of_mem_choices (firstLeast?_eq_some htarget).1
      · exact hs
    | _ => exact hs.elim
  | all group =>
    cases s with
    | all counts =>
      unfold Model.accept AllGroup.accept
      dsimp only
      split
      · exact (List.length_modify _ _ _).trans hs
      · exact hs
    | _ => exact hs.elim
  | mixed symbols =>
    cases s with
    | mixed =>
      unfold Model.accept
      dsimp only
      split <;> trivial
    | _ => exact hs.elim
  | _ => cases s <;> first | exact hs.elim | trivial

end Model

/-! ## Open elements -/

/-- The declaration that the mode names is there, and the state fits its content model. -/
def Mode.Fits (g : Grammar) (state : ModelState) : Mode → Prop
  | .declared i => ∃ d, g.elements[i]? = some d ∧ d.content.model.Fits state
  | .lax | .skip => state = .any

/-- What the open elements refer to is there. -/
def ContentWalk.WellFormed (g : Grammar) (w : ContentWalk) : Prop :=
  ∀ e ∈ w.opened, e.mode.Fits g e.state

namespace ContentWalk

variable {w : ContentWalk} {e : OpenElement} {name : Name} {mode : Mode} {path : String}

theorem declaration_eq_ok {i : Nat} {d : ElementDeclaration} (h : g.elements[i]? = some d) :
    declaration g i = .ok d := by
  unfold declaration
  rw [h]

/-- An element begins in a state of its content model. -/
theorem exists_startState (hg : g.WellFormed) (hmode : Placed.Sound g ⟨name, mode, path⟩) :
    ∃ state, startState g mode = .ok state ∧ mode.Fits g state := by
  cases mode with
  | lax => exact ⟨.any, rfl, rfl⟩
  | skip => exact ⟨.any, rfl, rfl⟩
  | declared i =>
    have hi : i < g.elements.size := hmode i rfl
    have hd : g.elements[i]? = some g.elements[i] := Array.getElem?_eq_getElem hi
    have hmodel := (hg.elements _ (Array.mem_of_getElem? hd)).model
    refine ⟨g.elements[i].content.model.start, ?_, _, hd, Model.fits_start hmodel⟩
    unfold startState
    dsimp only
    rw [declaration_eq_ok hd]
    rfl

/-- A child is given a mode, and its parent goes on to a state of its content model. -/
theorem exists_childMode (hg : g.WellFormed) (hclosed : g.Closed) (he : e.mode.Fits g e.state)
    (name : Name) (path : String) :
    ∃ mode state violations, childMode g e name path = .ok (mode, state, violations) ∧
      Placed.Sound g ⟨name, mode, path⟩ ∧ e.mode.Fits g state := by
  unfold childMode
  cases hm : e.mode with
  | skip =>
    rw [hm] at he
    exact ⟨_, _, _, rfl, fun _ hj => (nomatch hj), he⟩
  | lax =>
    rw [hm] at he
    refine ⟨_, _, _, rfl, ?_, he⟩
    cases hi : g.globalElement name with
    | none => exact Placed.sound_lax
    | some i => exact Placed.sound_of_globalElement hi
  | declared i =>
    rw [hm] at he
    obtain ⟨d, hd, hfits⟩ := he
    have hmem := Array.mem_of_getElem? hd
    have hnext := hfits.accept (hg.elements d hmem).model g.comparator name
    have hsound := Placed.sound_answeredMode hclosed hmem e.state name path path
    dsimp only
    rw [declaration_eq_ok hd]
    exact ⟨_, _, _, rfl, hsound, d, hd, hnext⟩

/-! ## Events -/

theorem wellFormed_empty : ({} : ContentWalk).WellFormed g := fun _ h => (nomatch h)

/-- **A start tag** that does not nest too deeply leads to a walk that is well-formed. -/
theorem WellFormed.start (hw : w.WellFormed g) (hg : g.WellFormed) (hclosed : g.Closed)
    (limits : Limits) (checksRoot : Bool) (name : Name) :
    (∃ n, w.start g limits checksRoot name = .error (.limit ⟨.depth, n, limits.maxDepth⟩)) ∨
      ∃ s, w.start g limits checksRoot name = .ok s ∧ s.walk.WellFormed g := by
  obtain ⟨opened⟩ := w
  unfold ContentWalk.start
  by_cases hdepth : limits.maxDepth < depth ⟨opened⟩ + 1
  · have hcheck : limits.check .depth (depth ⟨opened⟩ + 1) =
        .error ⟨.depth, depth ⟨opened⟩ + 1, limits.maxDepth⟩ := if_pos hdepth
    rw [hcheck]
    exact .inl ⟨_, rfl⟩
  · have hcheck : limits.check .depth (depth ⟨opened⟩ + 1) = .ok () := if_neg hdepth
    rw [hcheck]
    refine .inr ?_
    dsimp only [Except.mapError, bind, Except.bind]
    cases opened with
    | nil =>
      have hsound : Placed.Sound g ⟨name, (rootMode g checksRoot name ("/" ++ name.localPart)).1,
          "/" ++ name.localPart⟩ := Placed.sound_root checksRoot name
      obtain ⟨state, hstate, helement⟩ := exists_startState hg hsound
      dsimp only
      rw [hstate]
      exact ⟨_, rfl, List.forall_mem_singleton.mpr helement⟩
    | cons parent rest =>
      have hparent := hw parent List.mem_cons_self
      obtain ⟨mode, parentState, violations, hmode, hsound, hparent⟩ :=
        exists_childMode hg hclosed hparent name
          s!"{parent.path}/{name.localPart}[{(countUp name parent.children).1}]"
      obtain ⟨state, hstate, helement⟩ := exists_startState hg hsound
      dsimp only
      rw [hmode]
      dsimp only
      rw [hstate]
      refine ⟨_, rfl, List.forall_mem_cons.mpr ⟨helement, ?_⟩⟩
      exact List.forall_mem_cons.mpr ⟨hparent, (List.forall_mem_cons.mp hw).2⟩

theorem mode_receive (d : ElementDeclaration) (e : OpenElement) (text : String) :
    (receive d e text).1.mode = e.mode := by
  unfold receive
  dsimp only
  split
  · rfl
  · split <;> rfl

theorem state_receive (d : ElementDeclaration) (e : OpenElement) (text : String) :
    (receive d e text).1.state = e.state := by
  unfold receive
  dsimp only
  split
  · rfl
  · split <;> rfl

/-- **Text** never fails, and leads to a walk that is well-formed. -/
theorem WellFormed.characters (hw : w.WellFormed g) (text : String) :
    ∃ w' violations, w.characters g text = .ok (w', violations) ∧ w'.WellFormed g := by
  obtain ⟨opened⟩ := w
  cases opened with
  | nil => exact ⟨_, _, rfl, hw⟩
  | cons e rest =>
    obtain ⟨he, hrest⟩ := List.forall_mem_cons.mp hw
    unfold ContentWalk.characters
    dsimp only
    cases hm : e.mode with
    | lax => exact ⟨_, _, rfl, hw⟩
    | skip => exact ⟨_, _, rfl, hw⟩
    | declared i =>
      rw [hm] at he
      obtain ⟨d, hd, hfits⟩ := he
      dsimp only
      rw [declaration_eq_ok hd]
      refine ⟨_, _, rfl, List.forall_mem_cons.mpr ⟨?_, hrest⟩⟩
      rw [mode_receive, state_receive, hm]
      exact ⟨d, hd, hfits⟩

/-- **An end tag** fails only for markup, and leads to a walk that is well-formed all the same. -/
theorem WellFormed.stop (hw : w.WellFormed g) (ctx : ValueContext) (name : Name) :
    (∀ f, (w.stop g ctx name).1 = .error f → ∃ fault, f = .markup fault) ∧
      (w.stop g ctx name).2.WellFormed g := by
  obtain ⟨opened⟩ := w
  cases opened with
  | nil => exact ⟨fun f hf => ⟨_, (Except.error.inj hf).symm⟩, hw⟩
  | cons e rest =>
    obtain ⟨he, hrest⟩ := List.forall_mem_cons.mp hw
    refine ⟨fun f hf => ?_, hrest⟩
    change close g ctx e name = .error f at hf
    unfold close at hf
    split at hf
    · exact ⟨_, (Except.error.inj hf).symm⟩
    · cases hm : e.mode with
      | lax =>
        rw [hm] at hf
        exact nomatch hf
      | skip =>
        rw [hm] at hf
        exact nomatch hf
      | declared i =>
        rw [hm] at he hf
        obtain ⟨d, hd, -⟩ := he
        dsimp only at hf
        rw [declaration_eq_ok hd] at hf
        exact nomatch hf

end ContentWalk

end MarkupGrammar
