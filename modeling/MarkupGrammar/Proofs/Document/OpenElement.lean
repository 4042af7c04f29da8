import MarkupGrammar.Document.ContentWalk
import MarkupGrammar.Proofs.Document.Forest
import MarkupGrammar.Proofs.Grammar.Compiled

/-! # Open elements

What the check of content keeps of an open element is determined by the children and texts that have
gone before (`Placed.opened`). From there its steps are those of the evaluation: a start tag leads
to the child that is evaluated (`Placed.start_eq`), and texts and end tags are reported as they are
evaluated. The declarations that modes name are there, as the grammar has been compiled. -/

namespace MarkupGrammar

/-! ## Evaluating the content of a tree

The meaning of the check of content on a document tree, by recursion on the tree. What is reported
of an element itself only depends on its declaration, mode and path, on the names of its children
and on its text. The mode of a child is what the content model of its parent answers in the state
that the children before have left. -/

/-- An element as the check of content sees it. -/
structure ContentTag where
  name : Name
  /-- What its value is read with. -/
  context : ValueContext := {}

/-- The state of a content model after children. -/
def Model.after (m : Model) (c : Option Comparator) (names : List Name) : ModelState :=
  names.foldl (fun s n => (m.accept c s n).2) m.start

/-- An element with what it is validated against. -/
structure Placed where
  name : Name
  mode : Mode
  /-- The path. -/
  path : String

namespace Placed

variable (g : Grammar) (e : Placed)

/-- The declaration that the element is validated against, if there is one. -/
def declaration? : Option ElementDeclaration := e.mode.declaration?.bind (g.elements[·]?)

/-- The path of a child that comes after children with the names `before`. -/
def childPath (before : List Name) (name : Name) : String :=
  s!"{e.path}/{name.localPart}[{Counter.next (before.count name)}]"

/-- A child that comes after children with the names `before`, and what is reported of it. -/
def child (before : List Name) (name : Name) : Placed × List Violation :=
  let path := e.childPath before name
  match e.mode, e.declaration? g with
  | .skip, _ => (⟨name, .skip, path⟩, [])
  | .lax, _ => (⟨name, ((g.globalElement name).map .declared).getD .lax, path⟩, [])
  | .declared _, none => (⟨name, .lax, path⟩, [])
  | .declared _, some d =>
    let model := d.content.model
    let answer := (model.accept g.comparator (model.after g.comparator before) name).1
    let (mode, violations) := ContentWalk.answeredMode g d name path answer
    (⟨name, mode, path⟩, violations)

/-- Whether a text counts where no text is allowed. -/
def isSolid (s : String) : Bool := !s.toList.all Text.isMarkupBlank

/-- What is reported of a text that comes after the texts `before`: only the first counts. -/
def textReport (before : List String) (s : String) : List Violation :=
  match e.declaration? g with
  | none => []
  | some d =>
    if !d.content.category.allowsText && isSolid s && !before.any isSolid then
      [⟨.textNotAllowed d.name d.content.category, some e.name, some (Text.trim s), some e.path⟩]
    else []

/-- What is reported of the element at its end, after children and texts. -/
def endReport (ctx : ValueContext) (names : List Name) (texts : List String) : List Violation :=
  match e.declaration? g with
  | none => []
  | some d => ContentWalk.checkContent g ctx d
    { name := e.name
      mode := e.mode
      state := d.content.model.after g.comparator names
      path := e.path
      text := texts.foldl (· ++ ·) "" }

end Placed

/-- What is reported of each event of some content of an element, which comes after children with
the given names and after the given texts. -/
def Forest.contentReports (g : Grammar) (e : Placed) (names : List Name) (texts : List String) :
    Forest ContentTag → List (List Violation)
  | nil => []
  | piece s rest => e.textReport g texts s :: rest.contentReports g e names (texts ++ [s])
  | element l inner rest =>
    let (child, reported) := e.child g names l.name
    reported :: (inner.contentReports g child [] [] ++
      child.endReport g l.context (inner.labels.map (·.name)) inner.pieces ::
        rest.contentReports g e (names ++ [l.name]) texts)

/-- The root, and what is reported of it. -/
def Placed.root (g : Grammar) (checksRoot : Bool) (name : Name) : Placed × List Violation :=
  let path := "/" ++ name.localPart
  let (mode, violations) := ContentWalk.rootMode g checksRoot name path
  (⟨name, mode, path⟩, violations)

/-- What is reported of each event of a document. -/
def Tree.contentReports (g : Grammar) (checksRoot : Bool) (t : Tree ContentTag) :
    List (List Violation) :=
  let (root, reported) := Placed.root g checksRoot t.label.name
  reported :: (t.inner.contentReports g root [] [] ++
    [root.endReport g t.label.context (t.inner.labels.map (·.name)) t.inner.pieces])

variable {g : Grammar} {limits : Limits} {checksRoot : Bool} {e : Placed} {names : List Name}
  {texts : List String} {outer : List OpenElement}

/-! ## Numbers of children -/

namespace ContentWalk

/-- The counter of the children of a name. -/
def counted (name : Name) : List (Name × Nat) → Nat
  | [] => 0
  | (n, count) :: rest => if n = name then count else counted name rest

theorem countUp_fst (name : Name) (counts : List (Name × Nat)) :
    (countUp name counts).1 = Counter.next (counted name counts) := by
  induction counts with
  | nil => rfl
  | cons x rest ih =>
    rw [countUp, counted]
    split
    · rfl
    · exact ih

theorem counted_countUp (name other : Name) (counts : List (Name × Nat)) :
    counted other (countUp name counts).2 =
      if name = other then Counter.next (counted other counts) else counted other counts := by
  induction counts with
  | nil => simp [countUp, counted]
  | cons x rest ih =>
    rw [countUp, counted]
    by_cases hn : x.1 = name
    · rw [if_pos hn, counted]
      by_cases ho : x.1 = other
      · rw [if_pos ho, if_pos ho, if_pos (hn.symm.trans ho)]
      · have hne : name ≠ other := fun h => ho (hn.trans h)
        rw [if_neg ho, if_neg ho, if_neg hne]
    · rw [if_neg hn, counted]
      by_cases ho : x.1 = other
      · have hne : name ≠ other := fun h => hn (ho.trans h.symm)
        rw [if_pos ho, if_pos ho, if_neg hne]
      · rw [if_neg ho, if_neg ho, ih]

/-- The names of children as they are counted. -/
def counts (names : List Name) : List (Name × Nat) :=
  names.foldl (fun counts name => (countUp name counts).2) []

theorem counts_concat (names : List Name) (name : Name) :
    counts (names ++ [name]) = (countUp name (counts names)).2 := by
  rw [counts, List.foldl_concat]
  rfl

theorem counted_counts (names : List Name) (name : Name) :
    counted name (counts names) = names.count name % Counter.bound := by
  induction names using List.reverseRecOn with
  | nil => rfl
  | append_singleton names n ih =>
    rw [counts_concat, counted_countUp, ih, Counter.next_mod, List.count_append,
      List.count_singleton]
    by_cases hn : n = name
    · rw [if_pos hn, if_pos (beq_iff_eq.mpr hn)]
      rfl
    · rw [if_neg hn, if_neg (by simp [hn]), Nat.add_zero]

theorem countUp_counts (names : List Name) (name : Name) :
    (countUp name (counts names)).1 = Counter.next (names.count name) := by
  rw [countUp_fst, counted_counts, Counter.next_mod]

end ContentWalk

/-! ## Open elements -/

namespace Placed

/-- What the check keeps of an element after children and texts. -/
def opened (g : Grammar) (e : Placed) (names : List Name) (texts : List String) : OpenElement :=
  let d? := e.declaration? g
  { name := e.name
    mode := e.mode
    state := (d?.map (·.content.model.after g.comparator names)).getD .any
    path := e.path
    text := if d?.any (·.content.category = .simple) then texts.foldl (· ++ ·) "" else ""
    children := ContentWalk.counts names
    isTextReported := d?.any (!·.content.category.allowsText) && texts.any isSolid }

/-- The declaration that the mode names is there. -/
def Sound (g : Grammar) (e : Placed) : Prop := ∀ i, e.mode = .declared i → i < g.elements.size

/-- The mode of a sound element is either a declaration that is there, or none. -/
theorem Sound.cases (h : e.Sound g) : (e.declaration? g = none ∧ (e.mode = .lax ∨ e.mode = .skip)) ∨
    ∃ i d, e.mode = .declared i ∧ ContentWalk.declaration g i = .ok d ∧ d ∈ g.elements ∧
      e.declaration? g = some d := by
  unfold declaration?
  cases hm : e.mode with
  | lax => exact .inl ⟨rfl, .inl rfl⟩
  | skip => exact .inl ⟨rfl, .inr rfl⟩
  | declared i =>
    have hi := h i hm
    have hd : g.elements[i]? = some g.elements[i] := Array.getElem?_eq_getElem hi
    refine .inr ⟨i, g.elements[i], rfl, ?_, Array.getElem_mem hi, hd⟩
    rw [ContentWalk.declaration, hd]

/-- An element at its start tag. -/
theorem opened_start (g : Grammar) (e : Placed) : e.opened g [] [] =
    { name := e.name, mode := e.mode, state := (e.opened g [] []).state, path := e.path } := by
  unfold opened
  dsimp only
  rw [List.any_nil, Bool.and_false, List.foldl_nil, ite_self]
  rfl

theorem startState_eq (h : e.Sound g) :
    ContentWalk.startState g e.mode = .ok (e.opened g [] []).state := by
  unfold opened
  rcases h.cases with ⟨hd, hm | hm⟩ | ⟨i, d, hm, hdecl, -, hd⟩
  · rw [hd, hm]
    rfl
  · rw [hd, hm]
    rfl
  · rw [hd, hm, ContentWalk.startState, hdecl]
    rfl

/-! ### Text -/

theorem opened_of_none (hd : e.declaration? g = none) (texts texts' : List String) :
    e.opened g names texts = e.opened g names texts' := by
  unfold opened
  rw [hd]
  rfl

/-- Text in an element with a declaration. -/
theorem receive_opened {d : ElementDeclaration} (hd : e.declaration? g = some d) (s : String) :
    ContentWalk.receive d (e.opened g names texts) s =
      (e.opened g names (texts ++ [s]), e.textReport g texts s) := by
  have hblank : s.toList.all Text.isMarkupBlank = !isSolid s := by
    rw [isSolid, Bool.not_not]
  unfold ContentWalk.receive textReport opened
  rw [hd, hblank, List.foldl_concat, List.any_append]
  by_cases hs : d.content.category = .simple
  · -- all text is kept, and none is reported
    have hallows : Category.simple.allowsText = true := rfl
    simp [hs, hallows]
  · cases hallows : d.content.category.allowsText with
    | true => simp [hs, hallows]
    | false =>
      -- the first text that counts is reported
      cases texts.any isSolid with
      | true => simp [hs, hallows]
      | false => cases hsolid : isSolid s <;> simp [hs, hallows, hsolid]

/-- A piece of text. -/
theorem characters_eq (h : e.Sound g) (s : String) :
    ContentWalk.characters g ⟨e.opened g names texts :: outer⟩ s =
      .ok (⟨e.opened g names (texts ++ [s]) :: outer⟩, e.textReport g texts s) := by
  have hmode : (e.opened g names texts).mode = e.mode := rfl
  unfold ContentWalk.characters
  dsimp only
  rw [hmode]
  rcases h.cases with ⟨hd, hm⟩ | ⟨i, d, hm, hdecl, -, hd⟩
  · have hreport : e.textReport g texts s = [] := by
      rw [textReport, hd]
    rw [hreport, opened_of_none hd (texts ++ [s]) texts]
    rcases hm with hm | hm
    · rw [hm]
    · rw [hm]
  · rw [hm]
    dsimp only
    rw [hdecl]
    change Except.ok (_, _) = _
    rw [receive_opened hd]

/-! ### End tags -/

theorem checkContent_opened {d : ElementDeclaration} (hd : e.declaration? g = some d)
    (ctx : ValueContext) : ContentWalk.checkContent g ctx d (e.opened g names texts) =
      e.endReport g ctx names texts := by
  unfold endReport ContentWalk.checkContent opened
  rw [hd]
  dsimp only [Option.map_some, Option.getD_some, Option.any_some]
  by_cases hs : d.content.category = .simple
  · rw [if_pos hs, if_pos hs, if_pos (decide_eq_true hs)]
    rfl
  · rw [if_neg hs, if_neg hs]

/-- An end tag. -/
theorem stop_eq (h : e.Sound g) (ctx : ValueContext) {name : Name} (hn : e.name = name) :
    ContentWalk.stop g ctx ⟨e.opened g names texts :: outer⟩ name =
      (.ok (e.endReport g ctx names texts), ⟨outer⟩) := by
  have hmode : (e.opened g names texts).mode = e.mode := rfl
  have hname : ¬ (e.opened g names texts).name ≠ name := not_not.mpr hn
  unfold ContentWalk.stop ContentWalk.close
  dsimp only
  rw [if_neg hname, hmode]
  rcases h.cases with ⟨hd, hm⟩ | ⟨i, d, hm, hdecl, -, hd⟩
  · have hreport : e.endReport g ctx names texts = [] := by
      rw [endReport, hd]
    rw [hreport]
    rcases hm with hm | hm
    · rw [hm]
    · rw [hm]
  · rw [hm]
    dsimp only
    rw [hdecl, ← checkContent_opened hd]
    rfl

/-! ### Start tags -/

theorem sound_of_globalElement {name : Name} {path : String} {i : Nat}
    (h : g.globalElement name = some i) : Placed.Sound g ⟨name, .declared i, path⟩ := by
  intro j hj
  obtain rfl := Mode.declared.inj hj
  exact Grammar.lookup_lt h

theorem sound_lax {name : Name} {path : String} : Placed.Sound g ⟨name, .lax, path⟩ :=
  fun _ hj => nomatch hj

theorem sound_modeByName (d : ElementDeclaration) (name : Name) (path : String) :
    Placed.Sound g ⟨name, ContentWalk.modeByName g d name, path⟩ := by
  intro j hj
  unfold ContentWalk.modeByName at hj
  dsimp only at hj
  split at hj
  · rename_i i hi
    obtain rfl := Mode.declared.inj hj
    exact Grammar.lookupChild_lt hi
  · exact nomatch hj

theorem sound_wildcardMode (p : Processing) (name : Name) (path path' : String) :
    Placed.Sound g ⟨name, (ContentWalk.wildcardMode g p name path).1, path'⟩ := by
  unfold ContentWalk.wildcardMode
  dsimp only
  split
  · exact fun _ hj => nomatch hj
  · rename_i hi _
    exact sound_of_globalElement hi
  · exact sound_lax
  · exact sound_lax

theorem sound_boundMode {bound : Nat} (hb : bound < g.elements.size) (name : Name) (path : String) :
    Placed.Sound g ⟨name, ContentWalk.boundMode g bound name, path⟩ := by
  intro j hj
  unfold ContentWalk.boundMode at hj
  dsimp only at hj
  split at hj
  · obtain rfl := Mode.declared.inj hj
    exact hb
  · obtain rfl := Mode.declared.inj hj
    cases hi : g.globalElement name with
    | none => exact hb
    | some i => exact Grammar.lookup_lt hi

/-- The declarations that answers of content models lead to are there. -/
theorem sound_answeredMode (hg : g.Closed) {d : ElementDeclaration} (hd : d ∈ g.elements)
    (s : ModelState) (name : Name) (path path' : String) :
    Placed.Sound g ⟨name, (ContentWalk.answeredMode g d name path
      (d.content.model.accept g.comparator s name).1).1, path'⟩ := by
  have hclosed := hg d hd g.comparator s name
  cases hanswer : (d.content.model.accept g.comparator s name).1 with
  | matched decl? wildcard? =>
    cases wildcard? with
    | some p =>
      rw [ContentWalk.answeredMode]
      exact sound_wildcardMode p name path path'
    | none =>
      cases decl? with
      | some bound => exact sound_boundMode (hclosed bound none hanswer) name path'
      | none => exact sound_modeByName d name path'
  | unexpected expected => exact sound_modeByName d name path'
  | notAllowed => exact sound_modeByName d name path'

theorem sound_child (hg : g.Closed) (e : Placed) (names : List Name) (name : Name) :
    (e.child g names name).1.Sound g := by
  unfold child
  dsimp only
  split
  · exact fun _ hj => nomatch hj
  · cases hi : g.globalElement name with
    | none => exact sound_lax
    | some i => exact sound_of_globalElement hi
  · exact sound_lax
  · rename_i i d hm hd
    have hmem : d ∈ g.elements := by
      unfold declaration? at hd
      rw [hm] at hd
      exact Array.mem_of_getElem? hd
    exact sound_answeredMode hg hmem _ name _ _

/-- The child that a content model answers, and the state that it leaves. -/
theorem childMode_opened (h : e.Sound g) (name : Name) :
    ContentWalk.childMode g (e.opened g names texts) name (e.childPath names name) =
      .ok ((e.child g names name).1.mode, (e.opened g (names ++ [name]) texts).state,
        (e.child g names name).2) := by
  have hmode : (e.opened g names texts).mode = e.mode := rfl
  unfold ContentWalk.childMode child
  rw [hmode]
  rcases h.cases with ⟨hd, hm⟩ | ⟨i, d, hm, hdecl, -, hd⟩
  · have hstate : (e.opened g (names ++ [name]) texts).state = (e.opened g names texts).state := by
      unfold opened
      rw [hd]
      rfl
    rw [hstate]
    rcases hm with hm | hm
    · rw [hm]
    · rw [hm]
  · have hstate (names : List Name) : (e.opened g names texts).state =
        d.content.model.after g.comparator names := by
      unfold opened
      rw [hd]
      rfl
    have hafter : d.content.model.after g.comparator (names ++ [name]) =
        (d.content.model.accept g.comparator
          (d.content.model.after g.comparator names) name).2 := by
      rw [Model.after, List.foldl_concat]
      rfl
    rw [hm, hd, hstate, hstate, hafter]
    dsimp only
    rw [hdecl]
    rfl

theorem sound_root (checksRoot : Bool) (name : Name) : (root g checksRoot name).1.Sound g := by
  unfold root ContentWalk.rootMode
  cases hi : g.globalElement name with
  | none => exact sound_lax
  | some i => exact sound_of_globalElement hi

/-- The start tag of the root. -/
theorem start_root (checksRoot : Bool) (name : Name) (hdepth : 1 ≤ limits.maxDepth) :
    (ContentWalk.start g limits checksRoot {} name).map (fun s => (s.violations, s.walk)) =
      .ok ((root g checksRoot name).2, ⟨[(root g checksRoot name).1.opened g [] []]⟩) := by
  have hcheck : limits.check .depth (({} : ContentWalk).depth + 1) = .ok () :=
    if_neg (Nat.not_lt.mpr hdepth)
  have hstate : ContentWalk.startState g
      (ContentWalk.rootMode g checksRoot name ("/" ++ name.localPart)).1 =
        .ok ((root g checksRoot name).1.opened g [] []).state :=
    startState_eq (sound_root checksRoot name)
  unfold ContentWalk.start
  rw [hcheck]
  dsimp only [Except.mapError, bind, Except.bind]
  rw [hstate, opened_start]
  rfl

theorem name_child (e : Placed) (names : List Name) (name : Name) :
    (e.child g names name).1.name = name := by
  unfold child
  dsimp only
  split <;> rfl

theorem path_child (e : Placed) (names : List Name) (name : Name) :
    (e.child g names name).1.path = e.childPath names name := by
  unfold child
  dsimp only
  split <;> rfl

/-- The start tag of a child. -/
theorem start_eq (hg : g.Closed) (h : e.Sound g) (name : Name)
    (hdepth : outer.length + 2 ≤ limits.maxDepth) :
    (ContentWalk.start g limits checksRoot ⟨e.opened g names texts :: outer⟩ name).map
        (fun s => (s.violations, s.walk)) =
      .ok ((e.child g names name).2, ⟨(e.child g names name).1.opened g [] [] ::
        e.opened g (names ++ [name]) texts :: outer⟩) := by
  have hcheck : limits.check .depth ((⟨e.opened g names texts :: outer⟩ : ContentWalk).depth + 1) =
      .ok () := if_neg (Nat.not_lt.mpr hdepth)
  have hcount : ContentWalk.countUp name (e.opened g names texts).children =
      (Counter.next (names.count name), ContentWalk.counts (names ++ [name])) := by
    rw [ContentWalk.counts_concat]
    exact Prod.ext (ContentWalk.countUp_counts names name) rfl
  have hwritten : s!"{(e.opened g names texts).path}/{name.localPart}[{
      Counter.next (names.count name)}]" = e.childPath names name := rfl
  have hchild : ContentWalk.childMode g (e.opened g names texts) name (e.childPath names name) =
      .ok ((e.child g names name).1.mode, (e.opened g (names ++ [name]) texts).state,
        (e.child g names name).2) := childMode_opened h name
  have hstate := startState_eq (sound_child hg e names name)
  unfold ContentWalk.start
  rw [hcheck]
  dsimp only [Except.mapError, bind, Except.bind]
  rw [hcount]
  dsimp only
  rw [hwritten, hchild]
  dsimp only
  rw [hstate, opened_start, name_child, path_child]
  rfl

end Placed

end MarkupGrammar
