import MarkupGrammar.Pattern.Reader
import MarkupGrammar.Proofs.Pattern.Taking

/-! # What is read before a closing parenthesis

Reading alternatives comes to a closing parenthesis that belongs to no group of theirs, or to the
end. In the first case the text before the parenthesis, by itself, is read as the same pattern
(`alternativesTake_and_sequencesTake`). -/

namespace MarkupGrammar.Pattern

open Text

variable {o : Options} {s rest t x y : List Char} {c : Char} {fuel : Nat} {earlier : List Part}
  {part : Part} {p q last inner : Position}

/-! ## Operators -/

/-- What is behind a question mark that comes first. -/
def reluctant : List Char → List Char
  | '?' :: s => s
  | s => s

theorem takes_reluctant {α : Type} (a : α) (s : List Char) :
    Takes (fun s => some (a, reluctant s)) 0 s (fun r => (a, r)) (reluctant s) := by
  by_cases hs : ∃ s', s = '?' :: s'
  · obtain ⟨s', rfl⟩ := hs
    exact takes_iff.mpr ⟨['?'], rfl, Nat.zero_le _, fun r t _ => rfl⟩
  · have hother {x : List Char} (hx : ¬ ∃ x', x = '?' :: x') : reluctant x = x := by
      unfold reluctant
      split
      · exact absurd ⟨_, rfl⟩ hx
      · rfl
    rw [hother hs]
    refine TakesIf.refl fun r t hr _ => ?_
    rw [hother]
    rintro ⟨r', rfl⟩
    exact hs ⟨r' ++ ')' :: t, hr⟩

/-- The bounds in a curly bracket. -/
def boundsOf? (content : List Char) : Option (Nat × Option Nat) :=
  match cut ',' content with
  | none => (count? content).map fun n => (n, some n)
  | some (min, []) => (count? min).map fun min => (min, none)
  | some (min, max) => (count? min).bind fun min => (count? max).bind fun max =>
    if min ≤ max then some (min, some max) else none

theorem bounds?_eq (o : Options) (s : List Char) :
    bounds? o s = (o.braced? false s).bind fun (content, rest) =>
      (boundsOf? content).map fun bounds => (bounds, rest) := by
  change (o.braced? false s).bind _ = _
  refine congrArg _ (funext fun (content, rest) => ?_)
  dsimp only [boundsOf?]
  cases cut ',' content with
  | none => cases count? content <;> rfl
  | some parts =>
    obtain ⟨min, max⟩ := parts
    cases max with
    | nil =>
      dsimp only
      cases count? min <;> rfl
    | cons c max =>
      dsimp only
      cases count? min with
      | none => rfl
      | some n =>
        cases count? (c :: max) with
        | none => rfl
        | some m =>
          simp only [Option.bind_eq_bind, Option.bind_some]
          split <;> rfl

theorem takes_bounds? {bounds : Nat × Option Nat} (h : bounds? o s = some (bounds, rest)) :
    Takes (bounds? o) 1 s (fun r => (bounds, r)) rest := by
  rw [bounds?_eq] at h
  obtain ⟨⟨content, rest'⟩, hcontent, h⟩ := Option.bind_eq_some_iff.mp h
  obtain ⟨bounds', hbounds, heq⟩ := Option.map_eq_some_iff.mp h
  obtain ⟨rfl, rfl⟩ := Prod.mk.inj heq
  obtain ⟨u, hs, hn, hread⟩ := takes_iff.mp (takes_braced? hcontent)
  refine takes_iff.mpr ⟨u, hs, hn, fun r t hr => ?_⟩
  rw [bounds?_eq, hread r t hr]
  simp [hbounds]

theorem operator?_brace (o : Options) (s : List Char) :
    operator? o ('\x7b' :: s) = (bounds? o s).map fun (bounds, rest) =>
      (bounds, reluctant (o.skip rest)) := rfl

/-- The operators that are made up of one character. -/
def shortOperator? (c : Char) : Option (Nat × Option Nat) :=
  if c = '*' then some (0, none)
  else if c = '+' then some (1, none)
  else if c = '?' then some (0, some 1)
  else none

theorem operator?_cons (hc : c ≠ '\x7b') (s : List Char) :
    operator? o (c :: s) = (shortOperator? c).map fun bounds => (bounds, reluctant s) := by
  unfold operator? shortOperator?
  dsimp only
  split
  · rename_i heq
    obtain ⟨rfl, rfl⟩ := List.cons.inj heq
    rfl
  · rename_i heq
    obtain ⟨rfl, rfl⟩ := List.cons.inj heq
    rfl
  · rename_i heq
    obtain ⟨rfl, rfl⟩ := List.cons.inj heq
    rfl
  · rename_i heq
    exact absurd (List.cons.inj heq).1 hc
  · rename_i hstar hplus hquestion _
    rw [if_neg fun h : c = '*' => hstar s (by rw [h]),
      if_neg fun h : c = '+' => hplus s (by rw [h]),
      if_neg fun h : c = '?' => hquestion s (by rw [h])]
    rfl

theorem takes_operator? {bounds : Nat × Option Nat} (h : operator? o s = some (bounds, rest)) :
    Takes (operator? o) 1 s (fun r => (bounds, r)) rest := by
  cases s with
  | nil => exact nomatch h
  | cons c s =>
    by_cases hc : c = '\x7b'
    · subst hc
      rw [operator?_brace] at h
      obtain ⟨⟨bounds', rest'⟩, hbounds, heq⟩ := Option.map_eq_some_iff.mp h
      obtain ⟨rfl, rfl⟩ := Prod.mk.inj heq
      have hmark : Takes (fun x => some (bounds', reluctant (o.skip x))) 0 rest'
          (fun r => (bounds', r)) (reluctant (o.skip rest')) :=
        TakesIf.of_skip (takes_reluctant bounds' (o.skip rest')) fun x t _ => rfl
      have htail := (takes_bounds? hbounds).bind
        (g := fun (x : (Nat × Option Nat) × List Char) => some (x.1, reluctant (o.skip x.2))) hmark
      refine (TakesIf.cons (n := 1) ?_).of_le (by omega)
      simp only [operator?_brace, Option.map_eq_bind]
      exact htail
    · rw [operator?_cons hc] at h
      obtain ⟨bounds', hbounds, heq⟩ := Option.map_eq_some_iff.mp h
      obtain ⟨rfl, rfl⟩ := Prod.mk.inj heq
      refine TakesIf.cons ?_
      simp only [operator?_cons hc, hbounds]
      exact takes_reluctant _ _

/-! ## Groups -/

/-- The position where another text is left. -/
def Position.withRest (p : Position) (rest : List Char) : Position := { p with rest }

@[simp]
theorem Position.rest_withRest (p : Position) (r : List Char) : (p.withRest r).rest = r := rfl

@[simp]
theorem Position.options_withRest (p : Position) (r : List Char) :
    (p.withRest r).options = p.options := rfl

@[simp]
theorem Position.withRest_withRest (p : Position) (r r' : List Char) :
    (p.withRest r).withRest r' = p.withRest r' := rfl

/-- Reads the name of a group. -/
def named? (p : Position) (s : List Char) : Option (Opening × Position) :=
  (cut '>' s).bind fun (name, rest) =>
    if isGroupName name ∧ !p.names.contains name then
      some (.counted, { p with rest, names := name :: p.names, groups := p.groups + 1 })
    else none

/-- Reads options, for a group or for what follows. -/
def optionsOpening? (p : Position) (s : List Char) : Option (Opening × Position) :=
  (p.options.read? [] s).bind fun (o, close, rest) =>
    some (if close = ':' then .plain o else .directive o, { p with rest })

/-- Reads what a group begins with behind what is passed over. -/
def openingBehind? (p : Position) : List Char → Option (Opening × Position)
  | '?' :: 'P' :: '<' :: s => named? p s
  | '?' :: '<' :: s => named? p s
  | '?' :: s => optionsOpening? p s
  | rest => some (.counted, { p with rest, groups := p.groups + 1 })

theorem openingBehind?_options (hname : ∀ s', s ≠ 'P' :: '<' :: s') (hangle : ∀ s', s ≠ '<' :: s') :
    openingBehind? p ('?' :: s) = optionsOpening? p s := by
  rw [openingBehind?]
  · rintro s' rfl
    exact hname s' rfl
  · rintro s' rfl
    exact hangle s' rfl

theorem openingBehind?_counted (hmark : ∀ s', s ≠ '?' :: s') :
    openingBehind? p s = some (.counted, { p with rest := s, groups := p.groups + 1 }) := by
  rw [openingBehind?]
  · exact fun s' hs => hmark _ hs
  · exact fun s' hs => hmark _ hs
  · exact hmark

theorem opening?_eq (p : Position) : opening? p = openingBehind? p (p.options.skip p.rest) := by
  unfold opening?
  dsimp only
  generalize p.options.skip p.rest = x
  split
  · rfl
  · rfl
  · rename_i s hname hangle
    rw [openingBehind?_options (fun s' hs => hname s' (by rw [hs]))
      (fun s' hs => hangle s' (by rw [hs]))]
    change (p.options.read? [] s).bind _ = (p.options.read? [] s).bind _
    refine congrArg _ (funext fun (o, close, rest) => ?_)
    dsimp only
    split <;> rfl
  · rename_i hmark
    exact (openingBehind?_counted hmark).symm

theorem takes_options? {o' : Options} {close : Char} {seen : List Char}
    (h : o.read? seen s = some (o', close, rest)) :
    Takes (o.read? seen) 1 s (fun r => (o', close, r)) rest := by
  fun_induction Options.read? o seen s with
  | case1 => exact nomatch h
  | case2 o seen c s hclose hhyphen => exact nomatch h
  | case3 o seen c s hclose hhyphen =>
    simp only [Option.some.injEq, Prod.mk.injEq] at h
    obtain ⟨rfl, rfl, rfl⟩ := h
    refine TakesIf.cons (TakesIf.refl fun r t _ _ => ?_)
    rw [Options.read?, if_pos hclose, if_neg hhyphen]
  | case4 o seen c s hclose hseen => exact nomatch h
  | case5 o seen s hclose hseen ih =>
    refine (TakesIf.cons (n := 1) ?_).of_le (by omega)
    simp only [Options.read?, if_neg hclose, if_neg hseen]
    exact ih h
  | case6 o seen c s hclose hseen hhyphen o'' hset ih =>
    refine (TakesIf.cons (n := 1) ?_).of_le (by omega)
    simp only [Options.read?, if_neg hclose, if_neg hseen, if_neg hhyphen, hset]
    exact ih h
  | case7 o seen c s hclose hseen hhyphen hset => exact nomatch h

theorem takes_named? {opening : Opening} (h : named? p s = some (opening, inner)) :
    Takes (named? p) 1 s (fun r => (opening, inner.withRest r)) inner.rest := by
  obtain ⟨⟨name, rest⟩, hname, h⟩ := Option.bind_eq_some_iff.mp h
  dsimp only at h
  split at h
  · rename_i hfresh
    obtain ⟨rfl, rfl⟩ := Prod.mk.inj (Option.some.inj h)
    exact (takes_cut hname).bind (TakesIf.refl fun r t _ _ => if_pos hfresh)
  · exact nomatch h

theorem takes_optionsOpening? {opening : Opening}
    (h : optionsOpening? p s = some (opening, inner)) :
    Takes (optionsOpening? p) 1 s (fun r => (opening, inner.withRest r)) inner.rest := by
  obtain ⟨⟨o, close, rest⟩, hread, heq⟩ := Option.bind_eq_some_iff.mp h
  obtain ⟨rfl, rfl⟩ := Prod.mk.inj (Option.some.inj heq)
  exact (takes_options? hread).bind (g := fun (x : Options × Char × List Char) =>
    some (if x.2.1 = ':' then Opening.plain x.1 else .directive x.1, p.withRest x.2.2))
    (TakesIf.refl fun r t _ _ => rfl)

theorem takes_opening? {opening : Opening} (h : opening? p = some (opening, inner)) :
    Takes (fun x => opening? (p.withRest x)) 0 p.rest (fun r => (opening, inner.withRest r))
      inner.rest := by
  rw [opening?_eq] at h
  refine TakesIf.of_skip (o := p.options) (g := openingBehind? p) ?_ fun x t _ => opening?_eq _
  generalize p.options.skip p.rest = s at h
  by_cases hmark : ∃ s', s = '?' :: s'
  · obtain ⟨s, rfl⟩ := hmark
    refine (TakesIf.cons (n := 0) ?_).of_le (Nat.zero_le _)
    by_cases hname : ∃ s', s = 'P' :: '<' :: s'
    · obtain ⟨s, rfl⟩ := hname
      refine (TakesIf.cons (n := 2) (TakesIf.cons (n := 1) ?_)).of_le (Nat.zero_le _)
      exact takes_named? h
    · by_cases hangle : ∃ s', s = '<' :: s'
      · obtain ⟨s, rfl⟩ := hangle
        refine (TakesIf.cons (n := 1) ?_).of_le (Nat.zero_le _)
        exact takes_named? h
      · rw [openingBehind?_options (fun s' hs => hname ⟨s', hs⟩)
          (fun s' hs => hangle ⟨s', hs⟩)] at h
        obtain ⟨u, hs, -, hread⟩ := takes_iff.mp (takes_optionsOpening? h)
        refine takes_iff.mpr ⟨u, hs, Nat.zero_le _, fun r t hr => ?_⟩
        have hs' : s = (u ++ r) ++ ')' :: t := by rw [hs, hr, List.append_assoc]
        rw [openingBehind?_options, hread r t hr]
        · intro s' heq
          exact hname ⟨_, by rw [hs', heq]; rfl⟩
        · intro s' heq
          exact hangle ⟨_, by rw [hs', heq]; rfl⟩
  · rw [openingBehind?_counted fun s' hs => hmark ⟨s', hs⟩] at h
    obtain ⟨rfl, rfl⟩ := Prod.mk.inj (Option.some.inj h)
    refine TakesIf.refl fun r t hr _ => openingBehind?_counted fun s' hs => ?_
    rw [hs] at hr
    exact hmark ⟨_, hr⟩

/-! ## Single parts -/

/-- The part that an escape stands for. -/
def escapedPart (o : Options) : Escape → Part
  | .char c => { pattern := ofSet (o.fold (.single c)) }
  | .set t => { pattern := ofSet t }
  | .place p => { pattern := .place p }

theorem single?_escape (o : Options) (s : List Char) :
    single? o ('\\' :: s) = (escape? o s).map fun (e, rest) => (escapedPart o e, rest) := by
  rw [Option.map_eq_bind]
  change (escape? o s).bind _ = (escape? o s).bind _
  refine congrArg _ (funext fun (e, rest) => ?_)
  cases e <;> rfl

theorem single?_bracket (o : Options) (s : List Char) :
    single? o ('[' :: s) = (bracketed? (2 * s.length + 2) o s).map fun (t, depth, rest) =>
      ({ pattern := ofSet t, depth }, rest) := by
  rw [Option.map_eq_bind]
  rfl

/-- The part that one character stands for. -/
def shortPart? (o : Options) (c : Char) : Option Part := (single? o [c]).map Prod.fst

theorem single?_char (hc : c ∉ ['[', '\\', '.', '^', '$']) (s : List Char) :
    single? o (c :: s) = some ({ pattern := ofSet (o.fold (.single c)) }, s) := by
  have hnot {d : Char} {s' : List Char} (hd : d ∈ ['[', '\\', '.', '^', '$'])
      (heq : c :: s = d :: s') : False := hc ((List.cons.inj heq).1 ▸ hd)
  unfold single?
  dsimp only
  split
  · rename_i heq
    exact nomatch heq
  · rename_i heq
    exact (hnot (by decide) heq).elim
  · rename_i heq
    exact (hnot (by decide) heq).elim
  · rename_i heq
    exact (hnot (by decide) heq).elim
  · rename_i heq
    exact (hnot (by decide) heq).elim
  · rename_i heq
    exact (hnot (by decide) heq).elim
  · rename_i heq
    obtain ⟨rfl, rfl⟩ := List.cons.inj heq
    rfl

/-- Most parts are made up of one character. -/
theorem single?_cons (hc : c ∉ ['[', '\\']) (s : List Char) :
    single? o (c :: s) = (shortPart? o c).map fun part => (part, s) := by
  by_cases hspecial : c ∈ ['.', '^', '$']
  · simp only [List.mem_cons, List.not_mem_nil, or_false] at hspecial
    rcases hspecial with rfl | rfl | rfl
    · rw [shortPart?, single?, single?]
      cases anyCharacter? o <;> rfl
    · rfl
    · rfl
  · have hchar : c ∉ ['[', '\\', '.', '^', '$'] := fun h => by
      simp only [List.mem_cons, List.not_mem_nil, or_false] at hc hspecial h
      tauto
    rw [shortPart?, single?_char hchar, single?_char hchar]
    rfl

theorem takesIf_single? (h : single? o s = some (part, rest)) :
    TakesIf (IsClosed o) (single? o) 1 s (fun r => (part, r)) rest := by
  cases s with
  | nil => exact nomatch h
  | cons c s =>
    by_cases hc : c ∈ ['[', '\\']
    · simp only [List.mem_cons, List.not_mem_nil, or_false] at hc
      rcases hc with rfl | rfl
      · rw [single?_bracket] at h
        obtain ⟨⟨set, depth, rest'⟩, hset, heq⟩ := Option.map_eq_some_iff.mp h
        obtain ⟨rfl, rfl⟩ := Prod.mk.inj heq
        obtain ⟨u, rfl, -, hread⟩ := (bracketedTakes_and_membersTake _).1 hset
        refine ⟨'[' :: u, rfl, by simp, fun r t hr _ => ?_⟩
        have hread' := hread r t hr _ le_rfl
        dsimp only at hread'
        rw [List.cons_append, single?_bracket, hread']
        rfl
      · rw [single?_escape] at h
        obtain ⟨⟨e, rest'⟩, he, heq⟩ := Option.map_eq_some_iff.mp h
        obtain ⟨rfl, rfl⟩ := Prod.mk.inj heq
        obtain ⟨u, rfl, -, hread⟩ := takesIf_escape? he
        refine ⟨'\\' :: u, rfl, by simp, fun r t hr hclosed => ?_⟩
        rw [List.cons_append, single?_escape, hread r t hr fun p _ => hclosed]
        rfl
    · rw [single?_cons hc] at h
      obtain ⟨part', hpart, heq⟩ := Option.map_eq_some_iff.mp h
      obtain ⟨rfl, rfl⟩ := Prod.mk.inj heq
      exact TakesIf.cons (TakesIf.refl fun r t _ _ => by
        rw [single?_cons hc, hpart, Option.map_some])

/-! ## Sequences and alternatives -/

/-- Reads a group up to its closing parenthesis, and the rest of the sequence that it stands in. -/
def groupThen? (fuel : Nat) (earlier : List Part) (o : Options) (wrap : Part → Part)
    (p : Position) : Option (Part × Position) :=
  (alternatives? fuel [] p).bind fun (part, last) =>
    match last.rest with
    | ')' :: rest => sequence? fuel (wrap part :: earlier) { last with rest, options := o }
    | _ => none

/-- What repeats what comes before it. -/
def repeaters : List Char := ['*', '+', '?', '\x7b']

/-- What ends a sequence. -/
def closers : List Char := ['|', ')']

/-- Repeats the last of the parts so far. -/
def repeatLast? (bounds : Nat × Option Nat) : List Part → Option (List Part)
  | [] => none
  | last :: earlier =>
    if last.isDirective then none
    else some ({ pattern := times last.pattern bounds.1 bounds.2, depth := last.depth + 1 } ::
      earlier)

theorem sequence?_nil (h : p.options.skip p.rest = []) :
    sequence? (fuel + 1) earlier p = some (Part.sequence earlier, p.withRest []) := by
  rw [sequence?, h]
  rfl

theorem sequence?_closer (hc : c ∈ closers) (h : p.options.skip p.rest = c :: y) :
    sequence? (fuel + 1) earlier p = some (Part.sequence earlier, p.withRest (c :: y)) := by
  simp only [closers, List.mem_cons, List.not_mem_nil, or_false] at hc
  rw [sequence?, h]
  rcases hc with rfl | rfl <;> rfl

/-- Reads what follows the beginning of a group, and the rest of the sequence that it stands in. -/
def behindOpening? (fuel : Nat) (earlier : List Part) (o : Options) (opening : Opening)
    (inner : Position) : Option (Part × Position) :=
  match opening with
  | .directive o' =>
    sequence? fuel ({ pattern := .empty, isDirective := true } :: earlier)
      { inner with options := o' }
  | .plain o' =>
    groupThen? fuel earlier o (fun part => { part with depth := part.depth + 1 })
      { inner with options := o' }
  | .counted =>
    groupThen? fuel earlier o
      (fun part => { pattern := .group inner.groups part.pattern, depth := part.depth + 1 }) inner

theorem sequence?_group (h : p.options.skip p.rest = '(' :: y) :
    sequence? (fuel + 1) earlier p = (opening? (p.withRest y)).bind fun (opening, inner) =>
      behindOpening? fuel earlier p.options opening inner := by
  rw [sequence?, h]
  change (opening? (p.withRest y)).bind _ = (opening? (p.withRest y)).bind _
  refine congrArg _ (funext fun (opening, inner) => ?_)
  cases opening <;> rfl

/-- Behind a character that neither ends a sequence nor begins a group. -/
theorem sequence?_cons (hc : c ∉ '(' :: closers) (h : p.options.skip p.rest = c :: y) :
    sequence? (fuel + 1) earlier p = if repeaters.contains c then
      (operator? p.options (c :: y)).bind fun (bounds, rest) =>
        (repeatLast? bounds earlier).bind fun parts => sequence? fuel parts (p.withRest rest)
    else (single? p.options (c :: y)).bind fun (part, rest) =>
      sequence? fuel (part :: earlier) (p.withRest rest) := by
  have hnot {d : Char} {y' : List Char} (hd : d ∈ '(' :: closers) (heq : c :: y = d :: y') :
      False := hc ((List.cons.inj heq).1 ▸ hd)
  rw [sequence?, h]
  split
  · rename_i heq
    exact nomatch heq
  · rename_i heq
    exact (hnot (by decide) heq).elim
  · rename_i heq
    exact (hnot (by decide) heq).elim
  · rename_i heq
    exact (hnot (by decide) heq).elim
  · rename_i heq
    obtain ⟨rfl, rfl⟩ := List.cons.inj heq
    refine if_congr Iff.rfl ?_ rfl
    change (operator? p.options (c :: y)).bind _ = (operator? p.options (c :: y)).bind _
    refine congrArg _ (funext fun ((min, max), rest) => ?_)
    cases earlier with
    | nil => rfl
    | cons part earlier =>
      dsimp only [repeatLast?]
      split <;> rfl

theorem sequence?_repeater (hc : c ∈ repeaters) (h : p.options.skip p.rest = c :: y) :
    sequence? (fuel + 1) earlier p = (operator? p.options (c :: y)).bind fun (bounds, rest) =>
      (repeatLast? bounds earlier).bind fun parts => sequence? fuel parts (p.withRest rest) := by
  have hnot : c ∉ '(' :: closers := by
    have hdisjoint : repeaters.all (· ∉ '(' :: closers) := by decide
    exact of_decide_eq_true (List.all_eq_true.mp hdisjoint c hc)
  rw [sequence?_cons hnot h, if_pos (by simpa using hc)]

theorem sequence?_single (hc : c ∉ '(' :: closers) (hc' : c ∉ repeaters)
    (h : p.options.skip p.rest = c :: y) :
    sequence? (fuel + 1) earlier p = (single? p.options (c :: y)).bind fun (part, rest) =>
      sequence? fuel (part :: earlier) (p.withRest rest) := by
  rw [sequence?_cons hc h, if_neg (by simpa using hc')]

/-- An opening bracket with nothing but what is passed over behind it repeats nothing. -/
theorem isClosed_of_sequence? {r : Part × Position}
    (h : sequence? fuel earlier (p.withRest x) = some r) : IsClosed p.options x := by
  rintro y rfl hy
  cases fuel with
  | zero => exact nomatch h
  | succ fuel =>
    have hskip : p.options.skip ('\x7b' :: y) = '\x7b' :: y := by
      unfold Options.skip
      split
      · rfl
      · rfl
    rw [sequence?_repeater (c := '\x7b') (by decide) hskip] at h
    obtain ⟨⟨bounds, rest⟩, hbounds, -⟩ := Option.bind_eq_some_iff.mp h
    have hnone := braced?_eq_none hy
    change operator? p.options ('\x7b' :: y) = _ at hbounds
    rw [operator?_brace, bounds?_eq, hnone] at hbounds
    exact nomatch hbounds

theorem alternatives?_succ (fuel : Nat) (earlier : List Part) (p : Position) :
    alternatives? (fuel + 1) earlier p = (sequence? fuel [] p).bind fun (part, last) =>
      match last.rest with
      | '|' :: rest => alternatives? fuel (part :: earlier) (last.withRest rest)
      | _ => some (Part.choice (part :: earlier), last) := by
  rw [alternatives?]
  rfl

/-- Alternatives read with that much fuel can be read without what is behind them. -/
def AlternativesTake (n : Nat) : Prop :=
  ∀ ⦃earlier p part last⦄, alternatives? n earlier p = some (part, last) →
    TakesWithin 2 (fun fuel x => alternatives? fuel earlier (p.withRest x)) 0 p.rest
      (fun r => (part, last.withRest r)) last.rest

/-- Sequences read with that much fuel can be read without what is behind them. -/
def SequencesTake (n : Nat) : Prop :=
  ∀ ⦃earlier p part last⦄, sequence? n earlier p = some (part, last) →
    TakesWithin 1 (fun fuel x => sequence? fuel earlier (p.withRest x)) 0 p.rest
      (fun r => (part, last.withRest r)) last.rest

variable {n : Nat}

theorem AlternativesTake.succ (ih : AlternativesTake n) (ih' : SequencesTake n) :
    AlternativesTake (n + 1) := by
  intro earlier p part last h
  rw [alternatives?_succ] at h
  obtain ⟨⟨first, middle⟩, hfirst, hmore⟩ := Option.bind_eq_some_iff.mp h
  obtain ⟨u, hu, -, hread⟩ := ih' hfirst
  dsimp only at hmore hread
  split at hmore
  · rename_i rest hbar
    obtain ⟨u', hu', -, hread'⟩ := ih hmore
    rw [Position.rest_withRest] at hu'
    refine ⟨u ++ '|' :: u', by rw [hu, hbar, hu']; simp, Nat.zero_le _, ?_⟩
    intro r t hr fuel hfuel
    rw [List.append_assoc, List.cons_append] at hfuel ⊢
    simp only [List.length_append, List.length_cons] at hfuel
    obtain ⟨fuel, rfl⟩ : ∃ k, fuel = k + 1 := ⟨fuel - 1, by omega⟩
    have hmiddle : middle.rest = '|' :: (u' ++ r) ++ ')' :: t := by rw [hbar, hu', hr]; simp
    have hfirst' := hread ('|' :: (u' ++ r)) t hmiddle fuel (by simp; omega)
    have hmore' := hread' r t hr fuel (by simp; omega)
    dsimp only at hmore' ⊢
    rw [alternatives?_succ, hfirst']
    exact hmore'
  · rename_i hbar
    obtain ⟨rfl, rfl⟩ := Prod.mk.inj (Option.some.inj hmore)
    refine ⟨u, hu, Nat.zero_le _, fun r t hr fuel hfuel => ?_⟩
    obtain ⟨fuel, rfl⟩ : ∃ k, fuel = k + 1 := ⟨fuel - 1, by omega⟩
    have hfirst' := hread r t hr fuel (by omega)
    dsimp only
    rw [alternatives?_succ, hfirst', Option.bind_some]
    dsimp only [Position.rest_withRest]
    split
    · rw [hr] at hbar
      exact absurd rfl (hbar _)
    · rfl

/-- A group ends with its closing parenthesis, so it ends before one that is left. -/
theorem takesWithin_groupThen? {wrap : Part → Part} (ih : AlternativesTake n)
    (ih' : SequencesTake n) (h : groupThen? n earlier o wrap q = some (part, last)) :
    TakesWithin 2 (fun fuel x => groupThen? fuel earlier o wrap (q.withRest x)) 1 q.rest
      (fun r => (part, last.withRest r)) last.rest := by
  obtain ⟨⟨group, middle⟩, hgroup, hmore⟩ := Option.bind_eq_some_iff.mp h
  obtain ⟨u, hu, -, hread⟩ := ih hgroup
  dsimp only at hmore hread
  split at hmore
  · rename_i rest hparen
    obtain ⟨u', hu', -, hread'⟩ := ih' hmore
    dsimp only at hu' hread'
    refine ⟨u ++ ')' :: u', by rw [hu, hparen, hu']; simp, by simp; omega, ?_⟩
    intro r t hr fuel hfuel
    rw [List.append_assoc, List.cons_append] at hfuel ⊢
    simp only [List.length_append, List.length_cons] at hfuel
    have hmiddle : middle.rest = ')' :: (u' ++ r) ++ ')' :: t := by rw [hparen, hu', hr]; simp
    have hgroup' := hread (')' :: (u' ++ r)) t hmiddle fuel (by simp; omega)
    have hmore' := hread' r t hr fuel (by simp; omega)
    dsimp only
    rw [groupThen?, hgroup']
    exact hmore'
  · exact nomatch hmore

theorem takesWithin_behindOpening? {opening : Opening} (ih : AlternativesTake n)
    (ih' : SequencesTake n) (h : behindOpening? n earlier o opening inner = some (part, last)) :
    TakesWithin 2 (fun fuel x => behindOpening? fuel earlier o opening (inner.withRest x)) 0
      inner.rest (fun r => (part, last.withRest r)) last.rest := by
  cases opening with
  | directive o' =>
    obtain ⟨u, hu, hn, hread⟩ := ih' h
    exact ⟨u, hu, hn, fun r t hr fuel hfuel => hread r t hr fuel (by omega)⟩
  | plain o' =>
    rw [behindOpening?] at h
    obtain ⟨u, hu, -, hread⟩ := takesWithin_groupThen? ih ih' h
    exact ⟨u, hu, Nat.zero_le _, hread⟩
  | counted =>
    rw [behindOpening?] at h
    obtain ⟨u, hu, -, hread⟩ := takesWithin_groupThen? ih ih' h
    exact ⟨u, hu, Nat.zero_le _, hread⟩

/-- A group or a setting of options, and the sequence behind it. -/
theorem SequencesTake.group (ih' : SequencesTake n) (ih : AlternativesTake n)
    (hskip : p.options.skip p.rest = '(' :: y)
    (h : sequence? (n + 1) earlier p = some (part, last)) :
    TakesSkipped p.options 1 (fun fuel x => sequence? fuel earlier (p.withRest x)) 0 p.rest
      (fun r => (part, last.withRest r)) last.rest := by
  rw [sequence?_group hskip] at h
  obtain ⟨⟨opening, inner⟩, hopening, hmore⟩ := Option.bind_eq_some_iff.mp h
  obtain ⟨u, hu, -, hread⟩ := takes_iff.mp (takes_opening? hopening)
  obtain ⟨u', hu', -, hread'⟩ := takesWithin_behindOpening? ih ih' hmore
  rw [Position.rest_withRest] at hu
  refine ⟨'(' :: (u ++ u'), by rw [hskip, hu, hu']; simp, Nat.zero_le _, ?_⟩
  intro r t hr fuel hfuel x hx
  rw [List.cons_append, List.append_assoc] at hx hfuel
  simp only [List.length_cons, List.length_append] at hfuel
  have hopening' := hread (u' ++ r) t (by rw [hu', hr, List.append_assoc])
  have hmore' := hread' r t hr fuel (by simp; omega)
  have hx' : (p.withRest x).options.skip (p.withRest x).rest = '(' :: (u ++ (u' ++ r)) := hx
  dsimp only
  rw [sequence?_group hx', Position.withRest_withRest]
  rw [Position.withRest_withRest] at hopening'
  rw [hopening']
  exact hmore'

/-- An operator, and the sequence behind what it repeats. -/
theorem SequencesTake.repeater (ih : SequencesTake n) (hc : c ∈ repeaters)
    (hskip : p.options.skip p.rest = c :: y)
    (h : sequence? (n + 1) earlier p = some (part, last)) :
    TakesSkipped p.options 1 (fun fuel x => sequence? fuel earlier (p.withRest x)) 0 p.rest
      (fun r => (part, last.withRest r)) last.rest := by
  rw [sequence?_repeater hc hskip] at h
  obtain ⟨⟨bounds, rest⟩, hbounds, h⟩ := Option.bind_eq_some_iff.mp h
  obtain ⟨parts, hparts, hmore⟩ := Option.bind_eq_some_iff.mp h
  obtain ⟨u, hu, hn, hread⟩ := takes_iff.mp (takes_operator? hbounds)
  obtain ⟨u', hu', -, hread'⟩ := ih hmore
  rw [Position.rest_withRest] at hu'
  obtain ⟨d, u, rfl⟩ := List.exists_cons_of_ne_nil (List.ne_nil_of_length_pos hn)
  obtain ⟨rfl, -⟩ := List.cons.inj hu
  refine ⟨c :: (u ++ u'), by rw [hskip, hu, hu']; simp, Nat.zero_le _, ?_⟩
  intro r t hr fuel hfuel x hx
  rw [List.cons_append, List.append_assoc] at hx hfuel
  simp only [List.length_cons, List.length_append] at hfuel
  have hbounds' := hread (u' ++ r) t (by rw [hu', hr, List.append_assoc])
  have hmore' := hread' r t hr fuel (by simp; omega)
  have hx' : (p.withRest x).options.skip (p.withRest x).rest = c :: (u ++ (u' ++ r)) := hx
  rw [List.cons_append] at hbounds'
  dsimp only
  rw [sequence?_repeater hc hx', Position.options_withRest, hbounds', Option.bind_some]
  dsimp only
  rw [hparts]
  exact hmore'

/-- A single part, and the sequence behind it, which does not begin with an operator that is not
closed. -/
theorem SequencesTake.single (ih : SequencesTake n) (hc : c ∉ '(' :: closers)
    (hc' : c ∉ repeaters) (hskip : p.options.skip p.rest = c :: y)
    (h : sequence? (n + 1) earlier p = some (part, last)) :
    TakesSkipped p.options 1 (fun fuel x => sequence? fuel earlier (p.withRest x)) 0 p.rest
      (fun r => (part, last.withRest r)) last.rest := by
  rw [sequence?_single hc hc' hskip] at h
  obtain ⟨⟨single, rest⟩, hsingle, hmore⟩ := Option.bind_eq_some_iff.mp h
  obtain ⟨u, hu, hn, hread⟩ := takesIf_single? hsingle
  obtain ⟨u', hu', -, hread'⟩ := ih hmore
  rw [Position.rest_withRest] at hu'
  obtain ⟨d, u, rfl⟩ := List.exists_cons_of_ne_nil (List.ne_nil_of_length_pos hn)
  obtain ⟨rfl, -⟩ := List.cons.inj hu
  refine ⟨c :: (u ++ u'), by rw [hskip, hu, hu']; simp, Nat.zero_le _, ?_⟩
  intro r t hr fuel hfuel x hx
  rw [List.cons_append, List.append_assoc] at hx hfuel
  simp only [List.length_cons, List.length_append] at hfuel
  have hmore' := hread' r t hr fuel (by simp; omega)
  have hclosed : IsClosed p.options (u' ++ r) := isClosed_of_sequence? hmore'
  have hsingle' := hread (u' ++ r) t (by rw [hu', hr, List.append_assoc]) hclosed
  have hx' : (p.withRest x).options.skip (p.withRest x).rest = c :: (u ++ (u' ++ r)) := hx
  rw [List.cons_append] at hsingle'
  dsimp only
  rw [sequence?_single hc hc' hx', Position.options_withRest, hsingle']
  exact hmore'

theorem SequencesTake.succ (ih : AlternativesTake n) (ih' : SequencesTake n) :
    SequencesTake (n + 1) := by
  intro earlier p part last h
  refine TakesSkipped.takesWithin (o := p.options) Nat.one_pos ?_
  cases hskip : p.options.skip p.rest with
  | nil =>
    rw [sequence?_nil hskip] at h
    obtain ⟨rfl, rfl⟩ := Prod.mk.inj (Option.some.inj h)
    exact ⟨[], hskip, Nat.zero_le _, fun r t hr => absurd hr (by simp)⟩
  | cons c y =>
    by_cases hcloser : c ∈ closers
    · rw [sequence?_closer hcloser hskip] at h
      obtain ⟨rfl, rfl⟩ := Prod.mk.inj (Option.some.inj h)
      refine ⟨[], hskip, Nat.zero_le _, fun r t hr fuel _ x hx => ?_⟩
      cases r with
      | nil => exact sequence?_nil hx
      | cons d r =>
        obtain ⟨rfl, -⟩ := List.cons.inj hr
        exact sequence?_closer hcloser hx
    by_cases hopen : c = '('
    · subst hopen
      exact ih'.group ih hskip h
    by_cases hrepeater : c ∈ repeaters
    · exact ih'.repeater hrepeater hskip h
    · exact ih'.single (by simp [hopen, hcloser]) hrepeater hskip h

/-- **Alternatives and sequences** are read in the same way if the text ends before the closing
parenthesis that they come to. -/
theorem alternativesTake_and_sequencesTake (n : Nat) : AlternativesTake n ∧ SequencesTake n := by
  induction n with
  | zero =>
    constructor
    · intro earlier p part last h
      exact nomatch h
    · intro earlier p part last h
      exact nomatch h
  | succ n ih => exact ⟨ih.1.succ ih.2, .succ ih.1 ih.2⟩

end MarkupGrammar.Pattern
