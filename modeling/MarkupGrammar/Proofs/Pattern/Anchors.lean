import MarkupGrammar.Proofs.Pattern.Meaning
import MarkupGrammar.Proofs.Pattern.Reading

/-! # Patterns with anchors around them

A notation is read together with the anchors around it. If it is a notation by itself, it is read in
the group between the anchors as it is by itself, and what is accepted are the values that it
matches as a whole (`accepts_iff`). Otherwise it has a closing parenthesis that ends that group
before its anchor (`read?_eq_none_iff`). -/

namespace MarkupGrammar.Pattern

variable {s t v : List Char} {p q : Pattern} {part : Part} {last : Position} {i j : ℕ}

/-! ## Reading between the anchors -/

/-- Reading the notation comes to a closing parenthesis that belongs to no group in it. -/
def ClosesGroup (s : List Char) : Prop :=
  ∃ part last rest, alternatives? (2 * s.length + 2) [] { rest := s } = some (part, last) ∧
    last.rest = ')' :: rest

/-- What is read between the anchors: the group, up to a closing parenthesis. If nothing but the
second anchor is behind it, all of it is the pattern between the anchors. -/
theorem exists_group_of_read? (h : read? ('^' :: '(' :: '?' :: ':' :: s) = some q) :
    ∃ fuel part last rest, alternatives? fuel [] { rest := s } = some (part, last) ∧
      last.rest = ')' :: rest ∧ (rest = ['$'] →
        q = sequence [.place .textStart, part.pattern, .place .textEnd] ∧
          part.depth ≤ depthLimit) := by
  obtain ⟨⟨whole, position⟩, hwhole, h⟩ := Option.bind_eq_some_iff.mp h
  dsimp only at h
  split at h
  · rename_i hend
    obtain rfl := Option.some.inj h
    rw [List.length_cons, List.length_cons, List.length_cons, List.length_cons] at hwhole
    have hfuel : 2 * (s.length + 1 + 1 + 1 + 1) + 2 = 2 * s.length + 7 + 3 := by omega
    rw [hfuel, alternatives?_succ] at hwhole
    obtain ⟨⟨first, middle⟩, hfirst, hwhole⟩ := Option.bind_eq_some_iff.mp hwhole
    rw [sequence?_single (c := '^') (by decide) (by decide) rfl] at hfirst
    change sequence? (2 * s.length + 7 + 1) [{ pattern := .place .textStart }]
      { rest := '(' :: '?' :: ':' :: s } = _ at hfirst
    rw [sequence?_group rfl] at hfirst
    change groupThen? (2 * s.length + 7) [{ pattern := .place .textStart }] {}
      (fun part => { part with depth := part.depth + 1 }) { rest := s } = _ at hfirst
    obtain ⟨⟨part, last⟩, hpart, hmore⟩ := Option.bind_eq_some_iff.mp hfirst
    dsimp only at hmore
    split at hmore
    · rename_i rest hrest
      refine ⟨_, part, last, rest, hpart, hrest, ?_⟩
      rintro rfl
      have hfuel' : 2 * s.length + 7 = 2 * s.length + 5 + 2 := by omega
      rw [hfuel', sequence?_single (c := '$') (by decide) (by decide) rfl] at hmore
      change sequence? (2 * s.length + 5 + 1) [{ pattern := .place .textEnd },
        { part with depth := part.depth + 1 }, { pattern := .place .textStart }]
        { last with rest := [], options := {} } = _ at hmore
      rw [sequence?_nil rfl] at hmore
      obtain ⟨rfl, rfl⟩ := Prod.mk.inj (Option.some.inj hmore)
      obtain ⟨rfl, -⟩ := Prod.mk.inj (Option.some.inj hwhole)
      refine ⟨rfl, ?_⟩
      have hdepth : Nat.max (Nat.max (Nat.max 0 0) (part.depth + 1)) 0 + 1 ≤ depthLimit := hend.2
      have hle : part.depth + 1 ≤ Nat.max (Nat.max (Nat.max 0 0) (part.depth + 1)) 0 :=
        (Nat.le_max_right _ _).trans (Nat.le_max_left _ _)
      omega
    · exact nomatch hmore
  · exact nomatch h

/-- The notation by itself is read up to a closing parenthesis that ends the group, if there is
one. -/
theorem exists_reading_of_read?
    (h : read? ('^' :: '(' :: '?' :: ':' :: (s ++ [')', '$'])) = some q) :
    ∃ part last, alternatives? (2 * s.length + 2) [] { rest := s } = some (part, last) ∧
      (last.rest = [] → q = sequence [.place .textStart, part.pattern, .place .textEnd] ∧
        part.depth ≤ depthLimit) ∧
      (last.rest = [] ∨ ∃ rest, last.rest = ')' :: rest) := by
  obtain ⟨fuel, part, last, rest, hgroup, hrest, hwhole⟩ := exists_group_of_read? h
  obtain ⟨u, hu, -, hread⟩ := (alternativesTake_and_sequencesTake fuel).1 hgroup
  -- the parenthesis is the one before the anchor, or one in the notation
  have hafter : ∃ after, s = u ++ after ∧ ')' :: rest = after ++ [')', '$'] := by
    have hu' : s ++ [')', '$'] = u ++ ')' :: rest := by rw [← hrest, ← hu]
    rcases List.append_eq_append_iff.mp hu' with ⟨a, ha, hb⟩ | ⟨a, ha, hb⟩
    · match a with
      | [] => exact ⟨[], by simp [ha], hb.symm⟩
      | [c] => exact absurd (List.cons.inj (List.cons.inj hb).2).1 (by decide)
      | c :: d :: a => simp at hb
    · exact ⟨a, ha, hb⟩
  obtain ⟨after, rfl, hafter⟩ := hafter
  have hreading := hread after ['$'] (by rw [hrest, hafter]) _ le_rfl
  refine ⟨part, last.withRest after, hreading, ?_, ?_⟩
  · rintro rfl
    exact hwhole (List.cons.inj hafter).2
  · cases after with
    | nil => exact .inl rfl
    | cons c after =>
      obtain ⟨rfl, -⟩ := List.cons.inj hafter
      exact .inr ⟨after, rfl⟩

/-! ## The anchors -/

theorem Spans.le (h : p.Spans v i j) (hi : i ≤ v.length) : j ≤ v.length := by
  have hplaces : IsPlaces v.length [i] :=
    ⟨List.pairwise_singleton _ _, fun k hk => by rwa [List.mem_singleton.mp hk]⟩
  have hrun := computes_run v p
  exact (hrun.isPlaces hplaces).le j ((hrun.mem_iff hplaces j).mpr ⟨i, .head _, h⟩)

/-- A pattern between anchors occurs in a text if it matches the text as a whole. -/
theorem occursIn_anchors :
    (sequence [.place .textStart, p, .place .textEnd]).occursIn v ↔ p.MatchesWhole v := by
  rw [occursIn_iff]
  simp only [spans_sequence, spansAll_cons, spansAll_nil]
  constructor
  · rintro ⟨i, hi, j, _, ⟨hstart, rfl⟩, k, hp, _, ⟨hend, rfl⟩, rfl⟩
    have hzero : i = 0 := by
      by_contra hne
      rw [if_neg hne] at hstart
      simp [Place.holds] at hstart
      omega
    subst hzero
    have hle := Spans.le hp (Nat.zero_le _)
    have hlast : v.length ≤ k := by simpa [Place.holds] using hend
    rw [MatchesWhole, Nat.le_antisymm hlast hle]
    exact hp
  · intro hp
    refine ⟨0, Nat.zero_le _, v.length, 0, ⟨rfl, rfl⟩, v.length, hp, v.length, ⟨?_, rfl⟩, rfl⟩
    simp [Place.holds]

/-! ## Memory between the anchors -/

/-- The room of a pattern with the way to what is behind it. -/
def linkedRoom (d : Reading) (p : Pattern) : ℕ := (room d p).total d + (room d p).link

/-- The room of patterns that follow each other. -/
def linkedRooms (d : Reading) : List Pattern → ℕ
  | [] => 0
  | p :: ps => linkedRoom d p + linkedRooms d ps

@[simp] theorem linkedRooms_nil (d : Reading) : linkedRooms d [] = 0 := rfl

@[simp] theorem linkedRooms_cons (d : Reading) (p : Pattern) (ps : List Pattern) :
    linkedRooms d (p :: ps) = linkedRoom d p + linkedRooms d ps := rfl

@[simp] theorem linkedRooms_append (d : Reading) (ps qs : List Pattern) :
    linkedRooms d (ps ++ qs) = linkedRooms d ps + linkedRooms d qs := by
  induction ps with
  | nil => simp
  | cons p ps ih => rw [List.cons_append, linkedRooms_cons, linkedRooms_cons, ih, Nat.add_assoc]

theorem link_followedBy (d : Reading) (a b : Room) : (a.followedBy d b).link = b.link := by
  cases b with
  | plain bytes branching => cases branching <;> rfl
  | choice bytes texts? => rfl

@[simp] theorem linkedRoom_empty (d : Reading) : linkedRoom d empty = stateRoom := by
  cases d <;> rfl

@[simp] theorem linkedRoom_place (d : Reading) (place : Place) :
    linkedRoom d (.place place) = stateRoom := by
  cases d <;> rfl

@[simp] theorem linkedRoom_text (d : Reading) (s : List Char) :
    linkedRoom d (text s) = (s.flatMap bytesOf).length * stateRoom := by
  cases d <;> rfl

@[simp] theorem linkedRoom_cat (d : Reading) (p q : Pattern) :
    linkedRoom d (cat p q) = linkedRoom d p + linkedRoom d q := by
  cases d with
  | forward =>
    rw [linkedRoom, room, link_followedBy]
    simp only [Room.followedBy, Room.total, linkedRoom]
    omega
  | backward =>
    rw [linkedRoom, room, link_followedBy]
    simp only [Room.followedBy, Room.total, linkedRoom]
    omega

theorem linkedRooms_joinTexts (d : Reading) (ps : List Pattern) :
    linkedRooms d (joinTexts ps) = linkedRooms d ps := by
  induction ps with
  | nil => rfl
  | cons p ps ih =>
    unfold joinTexts
    split
    · rename_i s t qs hjoin
      rw [hjoin] at ih
      simp only [linkedRooms_cons, linkedRoom_text] at ih ⊢
      rw [← ih, List.flatMap_append, List.length_append, Nat.add_mul, Nat.add_assoc]
    · rw [linkedRooms_cons, linkedRooms_cons, ih]

theorem linkedRooms_le (d : Reading) (ps : List Pattern) :
    linkedRooms d ps ≤ linkedRoom d (ofParts ps) := by
  induction ps with
  | nil => exact Nat.zero_le _
  | cons p ps ih =>
    cases ps with
    | nil => exact le_rfl
    | cons q qs =>
      rw [ofParts, linkedRoom_cat, linkedRooms_cons]
      · exact Nat.add_le_add_left ih _
      · exact fun h => nomatch h

/-- Only an empty part behind all others is left out. -/
theorem linkedRoom_le_parts (d : Reading) (p : Pattern) :
    linkedRoom d p ≤ linkedRooms d p.parts + stateRoom := by
  induction p with
  | empty => simp [parts]
  | cat p q _ ihq =>
    rw [parts, linkedRoom_cat, linkedRooms_cons]
    omega
  | text | chars | place | alt | repeated | group => simp [parts]

theorem linkedRoom_le_anchors (d : Reading) (p : Pattern) :
    linkedRoom d p ≤ linkedRoom d (sequence [.place .textStart, p, .place .textEnd]) := by
  calc linkedRoom d p ≤ linkedRooms d p.parts + stateRoom := linkedRoom_le_parts d p
    _ ≤ linkedRooms d ([.place .textStart, p, .place .textEnd].flatMap parts) := by
      simp [parts]
    _ = linkedRooms d (joinTexts ([.place .textStart, p, .place .textEnd].flatMap parts)) :=
      (linkedRooms_joinTexts d _).symm
    _ ≤ linkedRoom d (sequence [.place .textStart, p, .place .textEnd]) := linkedRooms_le d _

/-- The automaton of a pattern is as large as its room. -/
theorem wholeRoom_eq (d : Reading) (p : Pattern) :
    wholeRoom d p =
      linkedRoom d p + (match d with | .forward => 4 | .backward => 2) * stateRoom := by
  cases d with
  | forward =>
    simp only [wholeRoom, room, Room.total, Room.link, linkedRoom]
    omega
  | backward =>
    have hlink : ((room .backward p).closed .backward).link = (room .backward p).link := by
      cases room .backward p with
      | plain bytes branching => cases branching <;> rfl
      | choice bytes texts? => rfl
    rw [wholeRoom, room, hlink]
    rfl

/-- A pattern that is not too large with anchors is not too large without them. -/
theorem isTooLarge_of_anchors (h : p.isTooLarge) :
    (sequence [.place .textStart, p, .place .textEnd]).isTooLarge := by
  rw [isTooLarge, Bool.or_eq_true, decide_eq_true_iff, decide_eq_true_iff] at h ⊢
  rw [wholeRoom_eq, wholeRoom_eq] at h ⊢
  have hforward := linkedRoom_le_anchors .forward p
  have hbackward := linkedRoom_le_anchors .backward p
  omega

/-! ## Whole values -/

variable {source : String} {a : Anchored}

theorem read?_eq_some_iff : read? s = some p ↔ ∃ part last,
    alternatives? (2 * s.length + 2) [] { rest := s } = some (part, last) ∧ last.rest = [] ∧
      part.depth ≤ depthLimit ∧ part.pattern = p := by
  constructor
  · intro h
    obtain ⟨⟨part, last⟩, hread, h⟩ := Option.bind_eq_some_iff.mp h
    dsimp only at h
    split at h
    · rename_i hend
      exact ⟨part, last, hread, List.isEmpty_iff.mp hend.1, hend.2, Option.some.inj h⟩
    · exact nomatch h
  · rintro ⟨part, last, hread, hend, hdepth, rfl⟩
    rw [read?, hread]
    simp [hend, hdepth]

theorem read?_of_anchored (h : anchored source = .ok a) :
    read? ('^' :: '(' :: '?' :: ':' :: (source.toList ++ [')', '$'])) = some a.pattern ∧
      a.pattern.isTooLarge = false := by
  unfold anchored at h
  split at h
  · exact nomatch h
  · rename_i q hq
    split at h
    · exact nomatch h
    · rename_i hsize
      obtain rfl := Except.ok.inj h
      exact ⟨hq, Bool.not_eq_true _ ▸ hsize⟩

/-- A notation by itself is read between the anchors as it is by itself. -/
theorem pattern_of_anchored (h : anchored source = .ok a) (hp : read? source.toList = some p) :
    a.pattern = sequence [.place .textStart, p, .place .textEnd] := by
  obtain ⟨part, last, hread, hwhole, -⟩ := exists_reading_of_read? (read?_of_anchored h).1
  obtain ⟨part', last', hread', hend, -, rfl⟩ := read?_eq_some_iff.mp hp
  obtain ⟨rfl, rfl⟩ := Prod.mk.inj (Option.some.inj (hread.symm.trans hread'))
  exact (hwhole hend).1

/-- **A notation between anchors** that is one by itself accepts the values that it matches as a
whole. -/
theorem accepts_iff (h : anchored source = .ok a) (hp : read? source.toList = some p)
    (value : String) : a.accepts value ↔ p.MatchesWhole value.toList := by
  rw [Anchored.accepts, pattern_of_anchored h hp]
  exact occursIn_anchors

theorem isTooLarge_eq_false (h : anchored source = .ok a) (hp : read? source.toList = some p) :
    p.isTooLarge = false := by
  have hsize := (read?_of_anchored h).2
  rw [pattern_of_anchored h hp] at hsize
  by_contra hlarge
  rw [isTooLarge_of_anchors (by simpa using hlarge)] at hsize
  exact nomatch hsize

/-- **A notation between anchors** is not one by itself if it closes the group between them. -/
theorem read?_eq_none_iff (h : anchored source = .ok a) :
    read? source.toList = none ↔ ClosesGroup source.toList := by
  obtain ⟨part, last, hread, hwhole, hrest⟩ := exists_reading_of_read? (read?_of_anchored h).1
  constructor
  · intro hnone
    rcases hrest with hend | ⟨rest, hparen⟩
    · have hp := read?_eq_some_iff.mpr ⟨part, last, hread, hend, (hwhole hend).2, rfl⟩
      rw [hp] at hnone
      exact nomatch hnone
    · exact ⟨part, last, rest, hread, hparen⟩
  · rintro ⟨part', last', rest, hread', hparen⟩
    by_contra hne
    obtain ⟨p, hp⟩ := Option.ne_none_iff_exists'.mp hne
    obtain ⟨part'', last'', hread'', hend, -⟩ := read?_eq_some_iff.mp hp
    obtain ⟨rfl, rfl⟩ := Prod.mk.inj (Option.some.inj (hread'.symm.trans hread''))
    rw [hend] at hparen
    exact nomatch hparen

end MarkupGrammar.Pattern
