import MarkupGrammar.Proofs.Document.WellFormed
import MarkupGrammar.Proofs.Grammar.Renumbering

/-! # Walks in grammars with other numbers

A walk keeps the numbers of the declarations of its open elements. In a renumbered grammar a
renumbered walk reports the same and goes on to a renumbered walk (`ContentWalk.start_renumber`,
`ContentWalk.characters_renumber`, `ContentWalk.stop_renumber`). The declarations have to be there,
as the report of one that is not would give its number. -/

namespace MarkupGrammar

variable {σ ρ : Nat → Nat} {g g' : Grammar}

/-- The mode with the number of its declaration changed. -/
def Mode.renumber (σ : Nat → Nat) : Mode → Mode
  | declared element => declared (σ element)
  | lax => lax
  | skip => skip

/-- The element with the number of its declaration changed. -/
def OpenElement.renumber (σ : Nat → Nat) (e : OpenElement) : OpenElement :=
  { e with mode := e.mode.renumber σ }

namespace ContentWalk

variable {w : ContentWalk} {e : OpenElement} {d d' : ElementDeclaration} {name : Name}
  {path : String} {mode : Mode}

/-- The walk with the numbers of declarations changed. -/
def renumber (σ : Nat → Nat) (w : ContentWalk) : ContentWalk := ⟨w.opened.map (·.renumber σ)⟩

/-- A start tag with the numbers of declarations changed. -/
def Start.renumber (σ : Nat → Nat) (s : Start) : Start :=
  { s with mode := s.mode.renumber σ, walk := s.walk.renumber σ }

@[simp] theorem depth_renumber (w : ContentWalk) : (w.renumber σ).depth = w.depth :=
  List.length_map _

theorem renumber_nil : (⟨[]⟩ : ContentWalk).renumber σ = ⟨[]⟩ := rfl

theorem renumber_cons (e : OpenElement) (rest : List OpenElement) :
    (⟨e :: rest⟩ : ContentWalk).renumber σ = ⟨e.renumber σ :: rest.map (·.renumber σ)⟩ := rfl

/-! ## Modes -/

theorem rootMode_renumber (h : g.Renumbered σ ρ g') (checksRoot : Bool) (name : Name)
    (path : String) : rootMode g' checksRoot name path =
      ((rootMode g checksRoot name path).1.renumber σ, (rootMode g checksRoot name path).2) := by
  unfold rootMode
  rw [h.description, h.globalElement]
  cases g.globalElement name <;> rfl

theorem wildcardMode_renumber (h : g.Renumbered σ ρ g') (p : Processing) (name : Name)
    (path : String) : wildcardMode g' p name path =
      ((wildcardMode g p name path).1.renumber σ, (wildcardMode g p name path).2) := by
  unfold wildcardMode Grammar.kind
  rw [h.description, h.globalElement]
  cases g.description.kind <;> cases p <;> cases g.globalElement name <;> rfl

theorem boundMode_renumber (h : g.Renumbered σ ρ g') (bound : Nat) (name : Name) :
    boundMode g' (σ bound) name = (boundMode g bound name).renumber σ := by
  have hname : (g'.elements[σ bound]?).any (·.name == name) =
      (g.elements[bound]?).any (·.name == name) := by
    have hrel := h.element bound
    generalize g.elements[bound]? = d?, g'.elements[σ bound]? = d'? at hrel ⊢
    cases hrel with
    | some hd => exact congrArg (· == name) hd.name
    | none => rfl
  unfold boundMode
  rw [hname, h.globalElement]
  split
  · rfl
  · cases g.globalElement name <;> rfl

theorem modeByName_renumber (h : g.Renumbered σ ρ g') (hd : d.Renumbered σ ρ g g' d')
    (name : Name) : modeByName g' d' name = (modeByName g d name).renumber σ := by
  unfold modeByName
  rw [hd.childScope, h.resolveChild]
  cases g.resolveChild d.childScope name <;> rfl

theorem renumber_eq_lax_iff : mode.renumber σ = .lax ↔ mode = .lax := by
  cases mode <;> simp [Mode.renumber]

/-- A renumbered answer leads to a renumbered mode. -/
theorem answeredMode_renumber (h : g.Renumbered σ ρ g') (hd : d.Renumbered σ ρ g g' d')
    (name : Name) (path : String) (answer : Match) :
    answeredMode g' d' name path (answer.renumber σ) =
      ((answeredMode g d name path answer).1.renumber σ,
        (answeredMode g d name path answer).2) := by
  cases answer with
  | matched decl? wildcard? =>
    cases wildcard? with
    | some p => cases decl? <;> exact wildcardMode_renumber h p name path
    | none =>
      cases decl? with
      | some bound => exact Prod.ext (boundMode_renumber h bound name) rfl
      | none =>
        unfold Match.renumber answeredMode
        dsimp only [Option.map_none]
        rw [modeByName_renumber h hd]
        simp only [renumber_eq_lax_iff]
  | unexpected expected =>
    unfold Match.renumber answeredMode
    rw [modeByName_renumber h hd, hd.name]
  | notAllowed =>
    unfold Match.renumber answeredMode
    rw [modeByName_renumber h hd, hd.name, hd.category]

/-- A declaration that is there is there in the other grammar. -/
theorem exists_renumbered (h : g.Renumbered σ ρ g') {i : Nat} (hd : g.elements[i]? = some d) :
    ∃ d', g'.elements[σ i]? = some d' ∧ d.Renumbered σ ρ g g' d' := by
  have hrel := h.element i
  rw [hd] at hrel
  generalize g'.elements[σ i]? = d'? at hrel ⊢
  cases hrel with
  | some hd' => exact ⟨_, rfl, hd'⟩

/-- The child of a renumbered element has a renumbered mode. -/
theorem childMode_renumber (h : g.Renumbered σ ρ g') (he : e.mode.Fits g e.state) (name : Name)
    (path : String) : childMode g' (e.renumber σ) name path =
      (childMode g e name path).map fun x => (x.1.renumber σ, x.2) := by
  unfold childMode OpenElement.renumber
  dsimp only
  cases hm : e.mode with
  | skip => rfl
  | lax =>
    dsimp only [Mode.renumber]
    rw [h.globalElement]
    cases g.globalElement name <;> rfl
  | declared i =>
    rw [hm] at he
    obtain ⟨d, hd, -⟩ := he
    obtain ⟨d', hd', hren⟩ := exists_renumbered h hd
    dsimp only [Mode.renumber]
    rw [declaration_eq_ok hd, declaration_eq_ok hd']
    dsimp only [bind, Except.bind]
    rw [hren.model, h.comparator, Model.accept_renumber]
    dsimp only
    rw [answeredMode_renumber h hren]
    rfl

theorem startState_renumber (h : g.Renumbered σ ρ g') (hmode : Placed.Sound g ⟨name, mode, path⟩) :
    startState g' (mode.renumber σ) = startState g mode := by
  cases mode with
  | lax => rfl
  | skip => rfl
  | declared i =>
    have hi : i < g.elements.size := hmode i rfl
    have hd : g.elements[i]? = some g.elements[i] := Array.getElem?_eq_getElem hi
    obtain ⟨d', hd', hren⟩ := exists_renumbered h hd
    unfold startState
    dsimp only [Mode.renumber]
    rw [declaration_eq_ok hd, declaration_eq_ok hd']
    change Except.ok d'.content.model.start = Except.ok _
    rw [hren.model, Model.start_renumber]

/-! ## Events -/

/-- **A start tag** reports the same in a renumbered grammar. -/
theorem start_renumber (h : g.Renumbered σ ρ g') (hg : g.WellFormed) (hclosed : g.Closed)
    (hw : w.WellFormed g) (limits : Limits) (checksRoot : Bool) (name : Name) :
    (w.renumber σ).start g' limits checksRoot name =
      (w.start g limits checksRoot name).map (Start.renumber σ) := by
  have hdepth : (w.renumber σ).depth = w.depth := depth_renumber w
  unfold ContentWalk.start
  rw [hdepth]
  cases limits.check .depth (w.depth + 1) with
  | error excess => rfl
  | ok u =>
    obtain ⟨opened⟩ := w
    cases opened with
    | nil =>
      have hsound : Placed.Sound g ⟨name, (rootMode g checksRoot name ("/" ++ name.localPart)).1,
          "/" ++ name.localPart⟩ := Placed.sound_root checksRoot name
      rw [renumber_nil]
      dsimp only [Except.mapError, bind, Except.bind]
      rw [rootMode_renumber h]
      dsimp only
      rw [startState_renumber h hsound]
      cases startState g (rootMode g checksRoot name ("/" ++ name.localPart)).1 <;> rfl
    | cons parent rest =>
      have hparent := hw parent List.mem_cons_self
      obtain ⟨mode, parentState, violations, hmode, hsound, -⟩ :=
        exists_childMode hg hclosed hparent name
          s!"{parent.path}/{name.localPart}[{(countUp name parent.children).1}]"
      have hchild := childMode_renumber h hparent name
        s!"{parent.path}/{name.localPart}[{(countUp name parent.children).1}]"
      have hpath : (parent.renumber σ).path = parent.path := rfl
      have hchildren : (parent.renumber σ).children = parent.children := rfl
      rw [renumber_cons]
      dsimp only [Except.mapError, bind, Except.bind]
      rw [hpath, hchildren, hchild, hmode]
      dsimp only [Except.map]
      rw [startState_renumber h hsound]
      cases startState g mode <;> rfl

theorem receive_renumber (hd : d.Renumbered σ ρ g g' d') (e : OpenElement) (text : String) :
    receive d' (e.renumber σ) text =
      ((receive d e text).1.renumber σ, (receive d e text).2) := by
  unfold receive
  rw [hd.category, hd.name]
  dsimp only
  split
  · rfl
  · have hreported : (e.renumber σ).isTextReported = e.isTextReported := rfl
    rw [hreported]
    split <;> rfl

/-- **Text** reports the same in a renumbered grammar. -/
theorem characters_renumber (h : g.Renumbered σ ρ g') (hw : w.WellFormed g) (text : String) :
    (w.renumber σ).characters g' text =
      (w.characters g text).map fun x => (x.1.renumber σ, x.2) := by
  obtain ⟨opened⟩ := w
  cases opened with
  | nil => rfl
  | cons e rest =>
    have he := hw e List.mem_cons_self
    have hmode : (e.renumber σ).mode = e.mode.renumber σ := rfl
    rw [renumber_cons]
    unfold ContentWalk.characters
    dsimp only
    rw [hmode]
    cases hm : e.mode with
    | lax => rfl
    | skip => rfl
    | declared i =>
      rw [hm] at he
      obtain ⟨d, hd, -⟩ := he
      obtain ⟨d', hd', hren⟩ := exists_renumbered h hd
      dsimp only [Mode.renumber]
      rw [declaration_eq_ok hd, declaration_eq_ok hd']
      dsimp only [bind, Except.bind]
      rw [receive_renumber hren]
      rfl

theorem checkContent_renumber (h : g.Renumbered σ ρ g') (hd : d.Renumbered σ ρ g g' d')
    (ctx : ValueContext) (e : OpenElement) :
    checkContent g' ctx d' (e.renumber σ) = checkContent g ctx d e := by
  have hstate : (e.renumber σ).state = e.state := rfl
  unfold checkContent checkText
  rw [hstate, hd.model, Model.finish_renumber, hd.name, hd.category, hd.type?, hd.fixed?, h.types]
  rfl

/-- **An end tag** reports the same in a renumbered grammar. -/
theorem stop_renumber (h : g.Renumbered σ ρ g') (hw : w.WellFormed g) (ctx : ValueContext)
    (name : Name) : (w.renumber σ).stop g' ctx name =
      ((w.stop g ctx name).1, (w.stop g ctx name).2.renumber σ) := by
  obtain ⟨opened⟩ := w
  cases opened with
  | nil => rfl
  | cons e rest =>
    have he := hw e List.mem_cons_self
    refine Prod.ext ?_ rfl
    change close g' ctx (e.renumber σ) name = close g ctx e name
    have hmode : (e.renumber σ).mode = e.mode.renumber σ := rfl
    have hname : (e.renumber σ).name = e.name := rfl
    unfold close
    rw [hmode, hname]
    split
    · rfl
    · cases hm : e.mode with
      | lax => rfl
      | skip => rfl
      | declared i =>
        rw [hm] at he
        obtain ⟨d, hd, -⟩ := he
        obtain ⟨d', hd', hren⟩ := exists_renumbered h hd
        dsimp only [Mode.renumber]
        rw [declaration_eq_ok hd, declaration_eq_ok hd']
        exact congrArg Except.ok (checkContent_renumber h hren ctx e)

end ContentWalk

end MarkupGrammar
