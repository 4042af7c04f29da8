import MarkupGrammar.Pattern.SetReader
import MarkupGrammar.Proofs.Text.Cutting

/-! # What the readers of pattern notation take

A reader takes a beginning of a text. What comes behind does not count: a reader that leaves a
closing parenthesis takes the same if the text ends before that parenthesis (`Takes`). Some readers
look at what they leave, so that this holds for them under a condition on it only: the text must not
end where a set does not (`takesIf_setRange?`), and not in a curly bracket that is not closed
(`takesIf_escape?`). -/

namespace MarkupGrammar.Pattern

open Text

variable {α β : Type} {f : List Char → Option α} {n m : Nat} {s mid rest u r t : List Char}
  {result : List Char → α} {o : Options} {c : Char} {p : List Char → Prop}

/-- The reader takes at least `n` characters and gives a result for what it leaves. If the text ends
before a closing parenthesis in what is left, and what is left then has the property, the reader
takes the same. -/
def TakesIf (p : List Char → Prop) (f : List Char → Option α) (n : Nat) (s : List Char)
    (result : List Char → α) (rest : List Char) : Prop :=
  ∃ u, s = u ++ rest ∧ n ≤ u.length ∧
    ∀ r t, rest = r ++ ')' :: t → p r → f (u ++ r) = some (result r)

/-- The reader takes at least `n` characters, whatever comes behind a closing parenthesis that it
leaves. -/
def Takes (f : List Char → Option α) (n : Nat) (s : List Char) (result : List Char → α)
    (rest : List Char) : Prop :=
  TakesIf (fun _ => True) f n s result rest

theorem takes_iff : Takes f n s result rest ↔ ∃ u, s = u ++ rest ∧ n ≤ u.length ∧
    ∀ r t, rest = r ++ ')' :: t → f (u ++ r) = some (result r) := by
  simp only [Takes, TakesIf, forall_const]

namespace TakesIf

/-- Nothing is taken. -/
theorem refl (h : ∀ r t, s = r ++ ')' :: t → p r → f r = some (result r)) :
    TakesIf p f 0 s result s :=
  ⟨[], rfl, Nat.zero_le _, h⟩

/-- A character, and what is taken behind it. -/
theorem cons (h : TakesIf p (fun s => f (c :: s)) n s result rest) :
    TakesIf p f (n + 1) (c :: s) result rest := by
  obtain ⟨u, rfl, hn, hread⟩ := h
  exact ⟨c :: u, rfl, Nat.succ_le_succ hn, hread⟩

theorem of_le (h : TakesIf p f n s result rest) (hm : m ≤ n) :
    TakesIf p f m s result rest := by
  obtain ⟨u, hs, hn, hread⟩ := h
  exact ⟨u, hs, by omega, hread⟩

end TakesIf

namespace Takes

variable {first : List Char → Option β} {value : List Char → β}

/-- A reader goes on where the first one stops. -/
theorem bind {g : β → Option α} (h : Takes first n s value mid)
    (h' : TakesIf p (fun x => g (value x)) m mid result rest) :
    TakesIf p (fun s => (first s).bind g) (n + m) s result rest := by
  obtain ⟨u, rfl, hn, hfirst⟩ := takes_iff.mp h
  obtain ⟨u', rfl, hm, hnext⟩ := h'
  refine ⟨u ++ u', (List.append_assoc ..).symm, by rw [List.length_append]; omega, ?_⟩
  intro r t hr hp
  have hmid : u' ++ rest = (u' ++ r) ++ ')' :: t := by rw [hr, List.append_assoc]
  dsimp only
  rw [List.append_assoc, hfirst _ _ hmid, Option.bind_some]
  exact hnext r t hr hp

theorem takesIf (h : Takes f n s result rest) : TakesIf p f n s result rest := by
  obtain ⟨u, hs, hn, hread⟩ := takes_iff.mp h
  exact ⟨u, hs, hn, fun r t hr _ => hread r t hr⟩

/-- The value is changed behind the reader. -/
theorem map {g : β → α} (h : Takes first n s value rest) :
    Takes (fun s => (first s).map g) n s (fun r => g (value r)) rest := by
  obtain ⟨u, hs, hn, hfirst⟩ := takes_iff.mp h
  refine takes_iff.mpr ⟨u, hs, hn, fun r t hr => ?_⟩
  rw [hfirst r t hr, Option.map_some]

end Takes

/-! ## Blanks and comments -/

/-- What is passed over is passed over at the end of a text, too, unless a comment goes on behind
it. -/
theorem dropSpace_spec (inComment : Bool) (s : List Char) : ∃ u, s = u ++ dropSpace inComment s ∧
    ∀ r t, dropSpace inComment s = r ++ ')' :: t → dropSpace inComment (u ++ r) = r := by
  fun_induction dropSpace inComment s with
  | case1 inComment => exact ⟨[], rfl, fun r t h => absurd h (by simp)⟩
  | case2 c s ih =>
    obtain ⟨u, hs, hdrop⟩ := ih
    refine ⟨c :: u, congrArg _ hs, fun r t h => ?_⟩
    rw [List.cons_append, dropSpace]
    exact hdrop r t h
  | case3 c s hc ih =>
    obtain ⟨u, hs, hdrop⟩ := ih
    refine ⟨c :: u, congrArg _ hs, fun r t h => ?_⟩
    rw [List.cons_append, dropSpace, if_pos hc]
    exact hdrop r t h
  | case4 s hc ih =>
    obtain ⟨u, hs, hdrop⟩ := ih
    refine ⟨'#' :: u, congrArg _ hs, fun r t h => ?_⟩
    rw [List.cons_append, dropSpace, if_neg hc, if_pos rfl]
    exact hdrop r t h
  | case5 c s hc hne =>
    refine ⟨[], rfl, fun r t h => ?_⟩
    cases r with
    | nil => rfl
    | cons d r =>
      obtain ⟨rfl, -⟩ := List.cons.inj h
      rw [List.nil_append, dropSpace, if_neg hc, if_neg hne]

theorem skip_spec (o : Options) (s : List Char) : ∃ u, s = u ++ o.skip s ∧
    ∀ r t, o.skip s = r ++ ')' :: t → o.skip (u ++ r) = r := by
  unfold Options.skip
  cases o.spaced with
  | false => exact ⟨[], rfl, fun r t _ => rfl⟩
  | true => exact dropSpace_spec false s

/-- A reader that begins with what is not passed over. -/
theorem TakesIf.of_skip {g : List Char → Option α}
    (h : TakesIf p g n (o.skip s) result rest)
    (hread : ∀ x t, o.skip s = o.skip x ++ ')' :: t → f x = g (o.skip x)) :
    TakesIf p f n s result rest := by
  obtain ⟨u, hs, hskip⟩ := skip_spec o s
  obtain ⟨u', hs', hn, hnext⟩ := h
  refine ⟨u ++ u', ?_, by rw [List.length_append]; omega, fun r t hr hp => ?_⟩
  · rw [List.append_assoc, ← hs', ← hs]
  · have hmid : o.skip s = (u' ++ r) ++ ')' :: t := by rw [hs', hr, List.append_assoc]
    have hx : o.skip (u ++ (u' ++ r)) = u' ++ r := hskip _ _ hmid
    rw [List.append_assoc, hread _ t (by rw [hx, hmid]), hx]
    exact hnext r t hr hp

/-- A reader that takes a character behind what is passed over. -/
theorem TakesIf.of_skip_cons {g : List Char → Option α} (hs : o.skip s = c :: mid)
    (h : TakesIf p g n mid result rest)
    (hread : ∀ x y, o.skip x = c :: y → f x = g y) :
    TakesIf p f (n + 1) s result rest := by
  obtain ⟨u, hu, hskip⟩ := skip_spec o s
  obtain ⟨u', rfl, hn, hnext⟩ := h
  rw [hs] at hu hskip
  refine ⟨u ++ c :: u', by simp [hu], by simp; omega, fun r t hr hp => ?_⟩
  have hx : o.skip (u ++ c :: (u' ++ r)) = c :: (u' ++ r) := hskip _ t (by simp [hr])
  rw [List.append_assoc, List.cons_append, hread _ _ hx]
  exact hnext r t hr hp

/-- What is not passed over at the end of a text is not passed over before other text. -/
theorem dropSpace_append (inComment : Bool) (s : List Char) (h : dropSpace inComment s ≠ [])
    (t : List Char) : dropSpace inComment (s ++ t) = dropSpace inComment s ++ t := by
  fun_induction dropSpace inComment s with
  | case1 inComment => exact absurd rfl h
  | case2 c s ih => exact ih h
  | case3 c s hc ih =>
    rw [List.cons_append, dropSpace, if_pos hc]
    exact ih h
  | case4 s hc ih =>
    rw [List.cons_append, dropSpace, if_neg hc, if_pos rfl]
    exact ih h
  | case5 c s hc hne => rw [List.cons_append, dropSpace, if_neg hc, if_neg hne]

theorem skip_append (h : o.skip s ≠ []) (t : List Char) : o.skip (s ++ t) = o.skip s ++ t := by
  unfold Options.skip at h ⊢
  split
  · rename_i hspaced
    rw [if_pos hspaced] at h
    exact dropSpace_append false s h t
  · rfl

/-! ## Cuts and brackets -/

theorem takes_cut {a : List Char} (h : cut c s = some (a, rest)) :
    Takes (cut c) 1 s (fun r => (a, r)) rest := by
  obtain ⟨rfl, hc⟩ := cut_eq_some_iff.mp h
  refine takes_iff.mpr ⟨a ++ [c], by simp, by simp, fun r t _ => ?_⟩
  exact cut_eq_some_iff.mpr ⟨by simp, hc⟩

theorem takes_braced? {inComment : Bool} {content : List Char}
    (h : o.braced? inComment s = some (content, rest)) :
    Takes (o.braced? inComment) 1 s (fun r => (content, r)) rest := by
  fun_induction Options.braced? o inComment s generalizing content with
  | case1 => exact nomatch h
  | case2 c s ih =>
    refine (TakesIf.cons ?_).of_le (Nat.le_add_left 1 1)
    simp only [Options.braced?]
    exact ih h
  | case3 s =>
    obtain ⟨rfl, rfl⟩ := Prod.mk.inj (Option.some.inj h)
    refine TakesIf.cons (TakesIf.refl fun r t _ _ => ?_)
    rw [Options.braced?, if_pos rfl]
  | case4 c s hne hc ih =>
    refine (TakesIf.cons ?_).of_le (Nat.le_add_left 1 1)
    simp only [Options.braced?, if_neg hne, if_pos hc]
    exact ih h
  | case5 c s hne hc hc' ih =>
    refine (TakesIf.cons ?_).of_le (Nat.le_add_left 1 1)
    simp only [Options.braced?, if_neg hne, if_neg hc, if_pos hc']
    exact ih h
  | case6 c s hne hc hc' ih =>
    obtain ⟨⟨content', rest'⟩, hs, heq⟩ := Option.map_eq_some_iff.mp h
    obtain ⟨rfl, rfl⟩ := Prod.mk.inj heq
    refine (TakesIf.cons ?_).of_le (Nat.le_add_left 1 1)
    simp only [Options.braced?, if_neg hne, if_neg hc, if_neg hc']
    exact (ih hs).map

/-! ## Escapes -/

theorem takes_takeNext {n : Nat} {cs : List Char} (h : takeNext o n s = some (cs, rest)) :
    Takes (takeNext o n) n s (fun r => (cs, r)) rest := by
  induction n generalizing s cs with
  | zero =>
    obtain ⟨rfl, rfl⟩ := Prod.mk.inj (Option.some.inj h)
    exact TakesIf.refl fun r t _ _ => rfl
  | succ n ih =>
    rw [takeNext] at h
    split at h
    · exact nomatch h
    · rename_i c s' hskip
      obtain ⟨⟨cs', rest'⟩, hs, heq⟩ := Option.map_eq_some_iff.mp h
      obtain ⟨rfl, rfl⟩ := Prod.mk.inj heq
      have htail := (ih hs).map (g := fun x => (c :: x.1, x.2))
      exact htail.of_skip_cons hskip fun x y hx => by rw [takeNext, hx]

theorem takes_hexEscape? {size : Nat} (h : hexEscape? o size s = some (c, rest)) :
    Takes (hexEscape? o size) 0 s (fun r => (c, r)) rest := by
  unfold hexEscape? at h
  split at h
  · rename_i s' hskip
    obtain ⟨⟨digits, rest'⟩, hdigits, h⟩ := Option.bind_eq_some_iff.mp h
    obtain ⟨c', hc, heq⟩ := Option.bind_eq_some_iff.mp h
    obtain ⟨rfl, rfl⟩ := Prod.mk.inj (Option.some.inj heq)
    have htail : Takes (fun s => (o.braced? false s).bind fun x =>
        (charOfHex? x.1).bind fun c => some (c, x.2)) 1 s' (fun r => (c', r)) rest' :=
      (takes_braced? hdigits).bind (TakesIf.refl fun r t _ _ => by simp [hc])
    refine (htail.of_skip_cons hskip fun x y hx => ?_).of_le (Nat.zero_le _)
    rw [hexEscape?, hx]
    rfl
  · rename_i hbrace
    obtain ⟨⟨digits, rest'⟩, hdigits, h⟩ := Option.bind_eq_some_iff.mp h
    obtain ⟨c', hc, h⟩ := Option.bind_eq_some_iff.mp h
    split at h
    · simp at h
    · rename_i hbyte
      obtain ⟨rfl, rfl⟩ := Prod.mk.inj (Option.some.inj h)
      have htail : Takes (fun s => (takeNext o size s).bind fun x =>
          (charOfHex? x.1).bind fun c =>
            if size = 2 ∧ !o.unicode ∧ 0x7F < c.toNat then none else some (c, x.2)) size
          (o.skip s) (fun r => (c', r)) rest' :=
        (takes_takeNext hdigits).bind
          (TakesIf.refl fun r t _ _ => by simp only [hc, Option.bind_some, if_neg hbyte])
      refine (htail.of_skip fun x t hx => ?_).of_le (Nat.zero_le _)
      unfold hexEscape?
      split
      · rename_i s' hopen
        rw [hopen] at hx
        exact absurd hx (hbrace _)
      · rfl

theorem takes_property? {set : CharSet} (h : property? o s = some (set, rest)) :
    Takes (property? o) 1 s (fun r => (set, r)) rest := by
  unfold property? at h
  dsimp only at h
  split at h
  · rename_i s' hskip
    obtain ⟨⟨name, rest'⟩, hname, h⟩ := Option.bind_eq_some_iff.mp h
    dsimp only at h
    split at h
    · rename_i hunicode
      obtain ⟨set', hset, heq⟩ := Option.bind_eq_some_iff.mp h
      obtain ⟨rfl, rfl⟩ := Prod.mk.inj (Option.some.inj heq)
      have htail : Takes (fun s => (o.braced? false s).bind fun x => if o.unicode then
          (namedSet? x.1).bind fun t => some (o.fold t, x.2) else none) 1 s'
          (fun r => (o.fold set', r)) rest' :=
        (takes_braced? hname).bind (TakesIf.refl fun r t _ _ => by simp [hunicode, hset])
      refine (htail.of_skip_cons hskip fun x y hx => ?_).of_le (by omega)
      unfold property?
      rw [hx]
      rfl
    · simp at h
  · simp at h
  · simp at h
  · rename_i c s' hbrace hslash hskip
    rw [Option.bind_eq_bind, Option.bind_some] at h
    split at h
    · rename_i hunicode
      obtain ⟨set', hset, heq⟩ := Option.bind_eq_some_iff.mp h
      obtain ⟨rfl, rfl⟩ := Prod.mk.inj (Option.some.inj heq)
      have htail : Takes (fun y => some (o.fold set', y)) 0 s' (fun r => (o.fold set', r)) s' :=
        TakesIf.refl fun r t _ _ => rfl
      refine htail.of_skip_cons hskip fun x y hx => ?_
      unfold property?
      rw [hx]
      simp [hunicode, hset]
    · simp at h

/-- What is passed over does not close a bracket. -/
theorem braced?_eq_none (h : o.skip s = []) : o.braced? false s = none := by
  have hspace (inComment : Bool) (s : List Char) (hspaced : o.spaced)
      (h : dropSpace inComment s = []) : o.braced? inComment s = none := by
    fun_induction dropSpace inComment s with
    | case1 inComment => rw [Options.braced?]
    | case2 c s ih =>
      rw [Options.braced?]
      exact ih h
    | case3 c s hc ih =>
      have hne : c ≠ '\x7d' := by
        rintro rfl
        exact absurd hc (by decide)
      rw [Options.braced?, if_neg hne, if_pos (by simp [hspaced, hc])]
      exact ih h
    | case4 s hc ih =>
      rw [Options.braced?, if_neg (by decide), if_neg (by simp [hc]), if_pos (by simp [hspaced])]
      exact ih h
    | case5 c s hc hne => exact absurd h (List.cons_ne_nil c s)
  unfold Options.skip at h
  split at h
  · rename_i hspaced
    exact hspace false s hspaced h
  · rw [h, Options.braced?]

/-- The text is not an opening bracket with nothing but what is passed over behind it. -/
def IsClosed (o : Options) (r : List Char) : Prop := ∀ x, r = '\x7b' :: x → o.skip x ≠ []

/-- The edge with a name. -/
def namedEdge? (name : List Char) : Option Edge :=
  match String.ofList name with
  | "start" => some .start
  | "end" => some .finish
  | "start-half" => some .startHalf
  | "end-half" => some .finishHalf
  | _ => none

theorem edge?_of_letter (hs : o.skip s = c :: t) (hc : c.isAlpha || c == '-') :
    edge? o ('\x7b' :: s) = (o.braced? false s).bind fun (name, rest) =>
      (namedEdge? name).map fun e => (e, rest) := by
  unfold edge?
  simp only [hs, if_pos hc]
  cases o.braced? false s with
  | none => rfl
  | some r =>
    simp only [Option.bind_some, namedEdge?]
    split <;> simp [*]

theorem edge?_of_not_letter (hs : o.skip s = c :: t) (hc : ¬ (c.isAlpha || c == '-')) :
    edge? o ('\x7b' :: s) = some (.either, '\x7b' :: s) := by
  unfold edge?
  simp only [hs, if_neg hc]

theorem takesIf_edge? {e : Edge} (h : edge? o s = some (e, rest)) :
    TakesIf (IsClosed o) (edge? o) 0 s (fun r => (e, r)) rest := by
  by_cases hopen : ∃ inside, s = '\x7b' :: inside
  · obtain ⟨inside, rfl⟩ := hopen
    by_cases hskip : o.skip inside = []
    · simp [edge?, hskip] at h
    · obtain ⟨c, w, hcw⟩ := List.exists_cons_of_ne_nil hskip
      by_cases hletter : c.isAlpha || c == '-'
      · rw [edge?_of_letter hcw hletter] at h
        obtain ⟨⟨name, rest'⟩, hname, h⟩ := Option.bind_eq_some_iff.mp h
        obtain ⟨e', he, heq⟩ := Option.map_eq_some_iff.mp h
        obtain ⟨rfl, rfl⟩ := Prod.mk.inj heq
        obtain ⟨u, rfl, -, hread⟩ := takes_iff.mp (takes_braced? hname)
        refine ⟨'\x7b' :: u, rfl, Nat.zero_le _, fun r t hr _ => ?_⟩
        have hbraced := hread r t hr
        -- the bracket is closed, so the letter is before the end
        have hx : o.skip (u ++ r) ≠ [] := fun hnil => by
          rw [braced?_eq_none hnil] at hbraced
          exact nomatch hbraced
        obtain ⟨c', w', hcw'⟩ := List.exists_cons_of_ne_nil hx
        rw [hr, ← List.append_assoc, skip_append hx, hcw'] at hcw
        obtain ⟨rfl, -⟩ := List.cons.inj hcw
        rw [List.cons_append, edge?_of_letter hcw' hletter, hbraced, Option.bind_some]
        simp [he]
      · rw [edge?_of_not_letter hcw hletter] at h
        obtain ⟨rfl, rfl⟩ := Prod.mk.inj (Option.some.inj h)
        refine TakesIf.refl fun r t hr hclosed => ?_
        cases r with
        | nil => exact absurd hr (by simp)
        | cons d x =>
          rw [List.cons_append] at hr
          obtain ⟨hd, hinside⟩ := List.cons.inj hr
          subst hd
          have hx := hclosed x rfl
          obtain ⟨c', w', hcw'⟩ := List.exists_cons_of_ne_nil hx
          rw [hinside, skip_append hx, hcw'] at hcw
          obtain ⟨rfl, -⟩ := List.cons.inj hcw
          exact edge?_of_not_letter hcw' hletter
  · have hother (x : List Char) (hx : ∀ inside, x ≠ '\x7b' :: inside) :
        edge? o x = some (.either, x) := by
      unfold edge?
      split
      · exact absurd rfl (hx _)
      · rfl
    rw [hother s fun inside hs => hopen ⟨inside, hs⟩] at h
    obtain ⟨rfl, rfl⟩ := Prod.mk.inj (Option.some.inj h)
    refine TakesIf.refl fun r t hr _ => hother r ?_
    rintro inside rfl
    exact hopen ⟨_, hr⟩

/-- What may be left behind an escape that stands for a place. -/
def IsClosedBehind (o : Options) (e : Escape) (r : List Char) : Prop :=
  ∀ p, e = .place p → IsClosed o r

/-- The escape that one character stands for. -/
def shortEscape? (o : Options) (c : Char) : Option Escape := (escape? o [c]).map Prod.fst

/-- Most escapes are made up of one character. -/
theorem escape?_cons (hc : c ∉ ['p', 'P', 'x', 'u', 'U', 'b']) (s : List Char) :
    escape? o (c :: s) = (shortEscape? o c).map fun e => (e, s) := by
  unfold shortEscape? escape?
  dsimp only
  split
  all_goals first
    | exact absurd hc (by decide)
    | rfl
    | simp [Function.comp_def]

theorem takesIf_escape? {e : Escape} (h : escape? o s = some (e, rest)) :
    TakesIf (IsClosedBehind o e) (escape? o) 1 s (fun r => (e, r)) rest := by
  cases s with
  | nil => exact nomatch h
  | cons c s =>
    refine TakesIf.cons ?_
    by_cases hc : c ∈ ['p', 'P', 'x', 'u', 'U', 'b']
    · simp only [List.mem_cons, List.not_mem_nil, or_false] at hc
      have hhex {size : Nat} (hsize : (hexEscape? o size s).map
          (fun x => (Escape.char x.1, x.2)) = some (e, rest)) :
          TakesIf (IsClosedBehind o e) (fun s => (hexEscape? o size s).map
            fun x => (Escape.char x.1, x.2)) 0 s (fun r => (e, r)) rest := by
        obtain ⟨⟨c, rest'⟩, hc, heq⟩ := Option.map_eq_some_iff.mp hsize
        obtain ⟨rfl, rfl⟩ := Prod.mk.inj heq
        exact (takes_hexEscape? hc).map.takesIf
      rcases hc with rfl | rfl | rfl | rfl | rfl | rfl
      · obtain ⟨⟨set, rest'⟩, hset, heq⟩ := Option.map_eq_some_iff.mp h
        obtain ⟨rfl, rfl⟩ := Prod.mk.inj heq
        exact (takes_property? hset).map.takesIf.of_le (Nat.zero_le _)
      · obtain ⟨⟨set, rest'⟩, hset, heq⟩ := Option.map_eq_some_iff.mp h
        obtain ⟨rfl, rfl⟩ := Prod.mk.inj heq
        exact (takes_property? hset).map.takesIf.of_le (Nat.zero_le _)
      · exact hhex h
      · exact hhex h
      · exact hhex h
      · obtain ⟨⟨edge, rest'⟩, hedge, heq⟩ := Option.map_eq_some_iff.mp h
        obtain ⟨rfl, rfl⟩ := Prod.mk.inj heq
        obtain ⟨u, hs, hn, hread⟩ := takesIf_edge? hedge
        refine ⟨u, hs, hn, fun r t hr hclosed => ?_⟩
        have hedge' := hread r t hr (hclosed _ rfl)
        change (edge? o (u ++ r)).map _ = _
        rw [hedge']
        rfl
    · rw [escape?_cons hc] at h
      obtain ⟨e', he, heq⟩ := Option.map_eq_some_iff.mp h
      obtain ⟨rfl, rfl⟩ := Prod.mk.inj heq
      exact TakesIf.refl fun r t _ _ => by rw [escape?_cons hc, he, Option.map_some]

/-! ## Sets -/

/-- The item of a set that an escape stands for. -/
def itemOf? (o : Options) : Escape → Option (Char ⊕ CharSet)
  | .char c => if o.unicode ∨ c.toNat < 128 then some (.inl c) else none
  | .set t => some (.inr t)
  | .place _ => none

theorem setItem?_slash (o : Options) (s : List Char) :
    setItem? o ('\\' :: s) =
      (escape? o s).bind fun (e, rest) => (itemOf? o e).map fun item => (item, rest) := by
  change (escape? o s).bind _ = (escape? o s).bind _
  refine congrArg _ (funext fun (e, rest) => ?_)
  cases e with
  | char c =>
    dsimp only [itemOf?]
    split <;> rfl
  | set t => rfl
  | place p => rfl

theorem setItem?_cons (hc : c ≠ '\\') (s : List Char) :
    setItem? o (c :: s) = (itemOf? o (.char c)).map fun item => (item, s) := by
  unfold setItem?
  simp only [itemOf?, Option.bind_eq_bind, Option.bind_some]
  split <;> rfl

theorem takes_setItem? {item : Char ⊕ CharSet} (h : setItem? o s = some (item, rest)) :
    Takes (setItem? o) 1 s (fun r => (item, r)) rest := by
  cases s with
  | nil => exact nomatch h
  | cons c s =>
    by_cases hc : c = '\\'
    · subst hc
      rw [setItem?_slash] at h
      obtain ⟨⟨e, rest'⟩, he, h⟩ := Option.bind_eq_some_iff.mp h
      obtain ⟨item', hitem, heq⟩ := Option.map_eq_some_iff.mp h
      obtain ⟨rfl, rfl⟩ := Prod.mk.inj heq
      have hplace (p : Place) : e ≠ .place p := by
        rintro rfl
        exact nomatch hitem
      obtain ⟨u, rfl, hn, hread⟩ := takesIf_escape? he
      refine takes_iff.mpr ⟨'\\' :: u, rfl, by simp, fun r t hr => ?_⟩
      have he' := hread r t hr fun p hp => absurd hp (hplace p)
      simp [setItem?_slash, he', hitem]
    · rw [setItem?_cons hc] at h
      obtain ⟨item', hitem, heq⟩ := Option.map_eq_some_iff.mp h
      obtain ⟨rfl, rfl⟩ := Prod.mk.inj heq
      exact TakesIf.cons (TakesIf.refl fun r t _ _ => by rw [setItem?_cons hc, hitem]; rfl)

/-- The search for a closing bracket or a hyphen comes to the same before other text. -/
theorem behind?_append (hc : c = ']' ∨ c = '-') (s t : List Char) :
    o.behind? (s ++ ')' :: t) = some c ↔ o.behind? s = some c := by
  have hblank : isBlank c = false := by rcases hc with rfl | rfl <;> decide
  have hparen : isBlank ')' = false := by decide
  have hne : c ≠ ')' ∧ c ≠ '#' := by rcases hc with rfl | rfl <;> decide
  have hhead (s : List Char) : (s ++ ')' :: t).head? = some c ↔ s.head? = some c := by
    cases s with
    | nil => simp [hne.1.symm]
    | cons d s => rfl
  have hfirst {s : List Char} (hs : s.head? = some c) : s.dropWhile isBlank = c :: s.tail := by
    cases s with
    | nil => exact nomatch hs
    | cons d s =>
      obtain rfl := Option.some.inj hs
      exact List.dropWhile_cons_of_neg (by simp [hblank])
  -- behind blanks there is something else, or the end, where the parenthesis is
  have hdrop (s : List Char) : (∃ d rest, s.dropWhile isBlank = d :: rest ∧
        (s ++ ')' :: t).dropWhile isBlank = d :: (rest ++ ')' :: t)) ∨
      s.dropWhile isBlank = [] ∧ (s ++ ')' :: t).dropWhile isBlank = ')' :: t := by
    rw [List.dropWhile_append]
    cases hs : s.dropWhile isBlank with
    | nil => simp [hparen]
    | cons d rest => exact .inl ⟨d, rest, rfl, rfl⟩
  unfold Options.behind?
  split
  · rcases hdrop s with ⟨d, rest, hs, happend⟩ | ⟨hs, happend⟩
    · rw [hs, happend]
      by_cases hd : d = '#'
      · subst hd
        have hnot : s.head? ≠ some c := fun hsome =>
          hne.2 (List.cons.inj ((hfirst hsome).symm.trans hs)).1
        rcases hdrop rest with ⟨d, rest', hrest, happend'⟩ | ⟨hrest, happend'⟩
        · simp [hrest, happend']
        · simp [hrest, happend', hnot, hne.1.symm]
      · simp [hd]
    · have hnot : s.head? ≠ some c := fun hsome => nomatch (hfirst hsome).symm.trans hs
      rw [hs, happend]
      simp [hnot, hne.1.symm]
  · exact hhead s

/-- The set of one item. -/
def singleSet : Char ⊕ CharSet → CharSet
  | .inl c => .single c
  | .inr t => t

/-- The set of a range. -/
def rangeSet? : Char ⊕ CharSet → Char ⊕ CharSet → Option CharSet
  | .inl a, .inl b => if a.toNat ≤ b.toNat then some (.range a.toNat b.toNat) else none
  | _, _ => none

/-- Whether a hyphen before the text makes no range. -/
def EndsRange (o : Options) (s : List Char) : Prop :=
  o.behind? s = some ']' ∨ o.behind? s = some '-'

instance : Decidable (EndsRange o s) := inferInstanceAs (Decidable (_ ∨ _))

theorem endsRange_append (o : Options) (s t : List Char) :
    EndsRange o (s ++ ')' :: t) ↔ EndsRange o s :=
  or_congr (behind?_append (.inl rfl) s t) (behind?_append (.inr rfl) s t)

/-- Reads what follows an item: the upper end of a range, or nothing. -/
def rangeTail? (o : Options) (low : Char ⊕ CharSet) : List Char → Option (CharSet × List Char)
  | [] => none
  | c :: s =>
    if c = '-' ∧ ¬ EndsRange o s then
      (setItem? o (o.skip s)).bind fun (high, rest) =>
        (rangeSet? low high).map fun t => (t, rest)
    else some (singleSet low, c :: s)

theorem setRange?_eq (o : Options) (s : List Char) :
    setRange? o s = (setItem? o s).bind fun (low, rest) => rangeTail? o low (o.skip rest) := by
  change (setItem? o s).bind _ = _
  refine congrArg _ (funext fun (low, rest) => ?_)
  dsimp only
  cases hskip : o.skip rest with
  | nil => rfl
  | cons c more =>
    rw [rangeTail?]
    by_cases hc : c = '-'
    · subst hc
      by_cases hends : EndsRange o more
      · rw [if_neg (by simp [hends])]
        exact if_pos hends
      · rw [if_pos ⟨rfl, hends⟩]
        refine (if_neg hends).trans ?_
        change (setItem? o (o.skip more)).bind _ = _
        refine congrArg _ (funext fun (high, rest') => ?_)
        cases low with
        | inl a =>
          cases high with
          | inl b =>
            dsimp only [rangeSet?]
            split <;> rfl
          | inr t => rfl
        | inr t => rfl
    · rw [if_neg fun h => hc h.1]
      split
      · rename_i heq
        exact nomatch heq
      · rename_i heq
        exact absurd (List.cons.inj heq).1 hc
      · rfl

theorem takesIf_rangeTail? {low : Char ⊕ CharSet} {set : CharSet}
    (h : rangeTail? o low s = some (set, rest)) :
    TakesIf (· ≠ []) (rangeTail? o low) 0 s (fun r => (set, r)) rest := by
  cases s with
  | nil => exact nomatch h
  | cons c s =>
    rw [rangeTail?] at h
    split at h
    · rename_i hrange
      obtain ⟨⟨high, rest'⟩, hhigh, h⟩ := Option.bind_eq_some_iff.mp h
      obtain ⟨set', hset, heq⟩ := Option.map_eq_some_iff.mp h
      obtain ⟨rfl, rfl⟩ := Prod.mk.inj heq
      have htail : Takes (fun s => (setItem? o (o.skip s)).bind fun (high, rest) =>
          (rangeSet? low high).map fun t => (t, rest)) 1 s (fun r => (set', r)) rest' :=
        TakesIf.of_skip ((takes_setItem? hhigh).bind (TakesIf.refl fun r t _ _ => by simp [hset]))
          fun x t _ => rfl
      obtain ⟨u, rfl, -, hread⟩ := takes_iff.mp htail
      refine ⟨c :: u, rfl, Nat.zero_le _, fun r t hr _ => ?_⟩
      rw [List.cons_append, rangeTail?]
      rw [hr, ← List.append_assoc, endsRange_append] at hrange
      rw [if_pos hrange]
      exact hread r t hr
    · rename_i hrange
      obtain ⟨rfl, rfl⟩ := Prod.mk.inj (Option.some.inj h)
      refine TakesIf.refl fun r t hr hne => ?_
      obtain ⟨d, r, rfl⟩ := List.exists_cons_of_ne_nil hne
      obtain ⟨rfl, hs⟩ := List.cons.inj hr
      rw [hs] at hrange
      rw [rangeTail?, if_neg fun hr => hrange ⟨hr.1, (endsRange_append o r t).not.mpr hr.2⟩]

theorem takesIf_setRange? {set : CharSet} (h : setRange? o s = some (set, rest)) :
    TakesIf (· ≠ []) (setRange? o) 1 s (fun r => (set, r)) rest := by
  rw [setRange?_eq] at h
  obtain ⟨⟨low, rest'⟩, hlow, h⟩ := Option.bind_eq_some_iff.mp h
  have htail : TakesIf (· ≠ []) (fun s => rangeTail? o low (o.skip s)) 0 rest'
      (fun r => (set, r)) rest := (takesIf_rangeTail? h).of_skip fun x t _ => rfl
  obtain ⟨u, hs, hn, hread⟩ := (takes_setItem? hlow).bind
    (g := fun (low, rest) => rangeTail? o low (o.skip rest)) htail
  exact ⟨u, hs, hn, fun r t hr hne => (setRange?_eq o _).trans (hread r t hr hne)⟩

/-- Reads the name of a set with its colon and closing bracket. -/
def namedSet (negated : Bool) (s : List Char) : Option (CharSet × Bool × List Char) :=
  match cut ':' s with
  | some (name, ']' :: rest) =>
    (namedSets.lookup (String.ofList name)).map fun t => (.ofText t, negated, rest)
  | _ => none

theorem namedSet_spec {set : CharSet} {b negated : Bool}
    (h : namedSet b s = some (set, negated, rest)) :
    ∃ c u, s = c :: u ++ rest ∧ ∀ r, namedSet b (c :: u ++ r) = some (set, negated, r) := by
  unfold namedSet at h
  split at h
  · rename_i name rest' hcut
    obtain ⟨t, ht, heq⟩ := Option.map_eq_some_iff.mp h
    simp only [Prod.mk.injEq] at heq
    obtain ⟨rfl, rfl, rfl⟩ := heq
    obtain ⟨rfl, hname⟩ := cut_eq_some_iff.mp hcut
    obtain ⟨c, u, hu⟩ : ∃ c u, name ++ [':', ']'] = c :: u :=
      List.exists_cons_of_ne_nil (by simp)
    refine ⟨c, u, by rw [← hu]; simp, fun r => ?_⟩
    rw [← hu]
    have hcut' : cut ':' (name ++ [':', ']'] ++ r) = some (name, ']' :: r) :=
      cut_eq_some_iff.mpr ⟨by simp, hname⟩
    rw [namedSet, hcut']
    simp [ht]
  · exact nomatch h

/-- Whether a circumflex comes first, and what is behind it. -/
def circumflex : List Char → Bool × List Char
  | '^' :: s => (true, s)
  | s => (false, s)

theorem circumflex_cons (hc : c ≠ '^') (s : List Char) : circumflex (c :: s) = (false, c :: s) := by
  unfold circumflex
  split
  · rename_i heq
    exact absurd (List.cons.inj heq).1 hc
  · rfl

theorem asciiSet?_colon (s : List Char) :
    asciiSet? (':' :: s) = namedSet (circumflex s).1 (circumflex s).2 := rfl

/-- What is read of a set with a name does not depend on what is behind it. -/
theorem asciiSet?_spec {set : CharSet} {negated : Bool}
    (h : asciiSet? s = some (set, negated, rest)) :
    ∃ u, s = u ++ rest ∧ ∀ r, asciiSet? (u ++ r) = some (set, negated, r) := by
  match s with
  | [] => exact nomatch h
  | [c] =>
    by_cases hc : c = ':'
    · subst hc
      exact nomatch h
    · simp [asciiSet?, hc] at h
  | c :: d :: s =>
    by_cases hc : c = ':'
    · subst hc
      by_cases hd : d = '^'
      · subst hd
        rw [asciiSet?_colon] at h
        obtain ⟨c, u, rfl, hread⟩ := namedSet_spec h
        exact ⟨':' :: '^' :: c :: u, rfl, fun r => hread r⟩
      · rw [asciiSet?_colon, circumflex_cons hd] at h
        obtain ⟨d', u, hs, hread⟩ := namedSet_spec h
        obtain ⟨rfl, rfl⟩ := List.cons.inj hs
        refine ⟨':' :: d :: u, rfl, fun r => ?_⟩
        rw [List.cons_append, List.cons_append, asciiSet?_colon, circumflex_cons hd]
        exact hread r
    · simp [asciiSet?, hc] at h

/-- Nothing is read at the end of a text if nothing is read before other text. -/
theorem asciiSet?_eq_none (t : List Char) (h : asciiSet? (s ++ t) = none) : asciiSet? s = none := by
  cases hs : asciiSet? s with
  | none => rfl
  | some r =>
    obtain ⟨set, negated, rest⟩ := r
    obtain ⟨u, rfl, hread⟩ := asciiSet?_spec hs
    rw [List.append_assoc, hread] at h
    exact nomatch h

theorem takes_firstHyphens {inComment : Bool} {start part : SetPart}
    (h : firstHyphens o inComment start s = (part, rest)) :
    Takes (fun s => some (firstHyphens o inComment start s)) 0 s (fun r => (part, r)) rest := by
  fun_induction firstHyphens o inComment start s with
  | case1 inComment start =>
    obtain ⟨rfl, rfl⟩ := Prod.mk.inj h
    exact TakesIf.refl fun r t hr _ => absurd hr (by simp)
  | case2 start c s ih =>
    refine (TakesIf.cons (n := 0) ?_).of_le (Nat.zero_le _)
    simp only [firstHyphens]
    exact ih h
  | case3 start s ih =>
    refine (TakesIf.cons (n := 0) ?_).of_le (Nat.zero_le _)
    simp only [firstHyphens, if_pos]
    exact ih h
  | case4 start c s hc hblank ih =>
    refine (TakesIf.cons (n := 0) ?_).of_le (Nat.zero_le _)
    simp only [firstHyphens, if_neg hc, if_pos hblank]
    exact ih h
  | case5 start c s hc hblank hcomment ih =>
    refine (TakesIf.cons (n := 0) ?_).of_le (Nat.zero_le _)
    simp only [firstHyphens, if_neg hc, if_neg hblank, if_pos hcomment]
    exact ih h
  | case6 start c s hc hblank hcomment =>
    obtain ⟨rfl, rfl⟩ := Prod.mk.inj h
    refine TakesIf.refl fun r t hr _ => ?_
    cases r with
    | nil => rfl
    | cons d r =>
      obtain ⟨rfl, -⟩ := List.cons.inj hr
      rw [firstHyphens, if_neg hc, if_neg hblank, if_neg hcomment]

/-- Whether a set is negated. -/
def openSet (o : Options) (s : List Char) : Bool × List Char :=
  match o.skip s with
  | '^' :: s => (true, o.skip s)
  | s => (false, s)

/-- What stands for itself at the beginning of a set. -/
def startSet (o : Options) : List Char → SetPart × List Char
  | ']' :: s => (({} : SetPart).add (.single ']') 0, s)
  | s => firstHyphens o false {} s

theorem takes_openSet {negated : Bool} (h : openSet o s = (negated, rest)) :
    Takes (fun s => some (openSet o s)) 0 s (fun r => (negated, r)) rest := by
  unfold openSet at h
  split at h
  · rename_i s' hskip
    obtain ⟨rfl, rfl⟩ := Prod.mk.inj h
    have htail : Takes (fun s => some (true, o.skip s)) 0 s' (fun r => (true, r)) (o.skip s') :=
      TakesIf.of_skip (TakesIf.refl (f := fun s => some (true, s)) fun r t _ _ => rfl)
        fun x t _ => rfl
    refine (htail.of_skip_cons hskip fun x y hx => ?_).of_le (Nat.zero_le _)
    simp only [openSet, hx]
  · rename_i hcircumflex
    obtain ⟨rfl, rfl⟩ := Prod.mk.inj h
    refine TakesIf.of_skip (TakesIf.refl (f := fun s => some (false, s)) fun r t _ _ => rfl)
      fun x t hx => ?_
    unfold openSet
    split
    · rename_i s' hskip
      rw [hskip] at hx
      exact absurd hx (hcircumflex _)
    · rfl

theorem startSet_cons (hc : c ≠ ']') (s : List Char) :
    startSet o (c :: s) = firstHyphens o false {} (c :: s) := by
  unfold startSet
  split
  · rename_i heq
    exact absurd (List.cons.inj heq).1 hc
  · rfl

theorem takes_startSet {part : SetPart} (h : startSet o s = (part, rest)) :
    Takes (fun s => some (startSet o s)) 0 s (fun r => (part, r)) rest := by
  cases s with
  | nil =>
    obtain ⟨rfl, rfl⟩ := Prod.mk.inj h
    exact TakesIf.refl fun r t hr _ => absurd hr (by simp)
  | cons c s =>
    by_cases hc : c = ']'
    · subst hc
      obtain ⟨rfl, rfl⟩ := Prod.mk.inj h
      exact takes_iff.mpr ⟨[']'], rfl, Nat.zero_le _, fun r t _ => rfl⟩
    · rw [startSet_cons hc] at h
      obtain ⟨u, hs, hn, hread⟩ := takes_iff.mp (takes_firstHyphens h)
      refine takes_iff.mpr ⟨u, hs, hn, fun r t hr => ?_⟩
      rw [← hread r t hr]
      cases hu : u ++ r with
      | nil => rfl
      | cons d x =>
        have hd : d = c := by
          rw [hr, ← List.append_assoc, hu] at hs
          exact (List.cons.inj hs).1.symm
        rw [startSet_cons (hd ▸ hc)]

theorem bracketed?_succ (fuel : Nat) (o : Options) (s : List Char) :
    bracketed? (fuel + 1) o s =
      (setMembers? fuel o none (startSet o (openSet o s).2).1 (startSet o (openSet o s).2).2).bind
        fun (part, rest) => (o.negate? (openSet o s).1 (o.fold part.set)).bind fun t =>
          some (t, part.level + 1, rest) := by
  rw [bracketed?]
  rfl

/-! ## Readers with fuel -/

/-- The reader takes at least `n` characters, whatever comes behind a closing parenthesis that it
leaves, and whatever the fuel, if it is at least twice the length of the text and `a` more. -/
def TakesWithin (a : Nat) (f : Nat → List Char → Option α) (n : Nat) (s : List Char)
    (result : List Char → α) (rest : List Char) : Prop :=
  ∃ u, s = u ++ rest ∧ n ≤ u.length ∧ ∀ r t, rest = r ++ ')' :: t →
    ∀ fuel, 2 * (u ++ r).length + a ≤ fuel → f fuel (u ++ r) = some (result r)

/-- The reader begins with what is not passed over, of which it takes at least `n` characters, and
uses up fuel; it takes the same of every text with this after what is passed over. -/
def TakesSkipped (o : Options) (a : Nat) (f : Nat → List Char → Option α) (n : Nat) (s : List Char)
    (result : List Char → α) (rest : List Char) : Prop :=
  ∃ u, o.skip s = u ++ rest ∧ n ≤ u.length ∧ ∀ r t, rest = r ++ ')' :: t →
    ∀ fuel, 2 * (u ++ r).length + a ≤ fuel + 1 → ∀ x, o.skip x = u ++ r →
      f (fuel + 1) x = some (result r)

theorem TakesSkipped.takesWithin {a : Nat} {f : Nat → List Char → Option α} (ha : 0 < a)
    (h : TakesSkipped o a f n s result rest) : TakesWithin a f n s result rest := by
  obtain ⟨u, hs, hskip⟩ := skip_spec o s
  obtain ⟨u', hs', hn, hread⟩ := h
  refine ⟨u ++ u', by rw [List.append_assoc, ← hs', ← hs], by simp; omega, ?_⟩
  intro r t hr fuel hfuel
  have hmid : o.skip s = (u' ++ r) ++ ')' :: t := by rw [hs', hr, List.append_assoc]
  rw [List.append_assoc] at hfuel ⊢
  rw [List.length_append] at hfuel
  obtain ⟨fuel, rfl⟩ : ∃ k, fuel = k + 1 := ⟨fuel - 1, by omega⟩
  exact hread r t hr fuel (by omega) _ (hskip _ _ hmid)

/-! ### Members of sets -/

/-- The text begins with a member of a set that is no set in brackets. -/
def BeginsMember (s : List Char) : Prop :=
  s ≠ [] ∧ ∀ mark ∈ [[']'], ['&', '&'], ['-', '-'], ['~', '~'], ['[']], ¬ mark <+: s

/-- Sets in brackets read with that much fuel end with their brackets. -/
def BracketedTakes (n : Nat) : Prop :=
  ∀ ⦃o s set depth rest⦄, bracketed? n o s = some (set, depth, rest) →
    TakesWithin 2 (fun fuel => bracketed? fuel o) 1 s (fun r => (set, depth, r)) rest

/-- Members read with that much fuel end with a closing bracket. -/
def MembersTake (n : Nat) : Prop :=
  ∀ ⦃o left? current s part rest⦄, setMembers? n o left? current s = some (part, rest) →
    TakesWithin 1 (fun fuel => setMembers? fuel o left? current) 1 s (fun r => (part, r)) rest

section Members

variable {fuel depth : Nat} {left? : Option (SetPart × SetOperator)} {current part : SetPart}
  {x y : List Char} {set : CharSet}

theorem BeginsMember.of_append (h : BeginsMember (x ++ y)) (hx : x ≠ []) : BeginsMember x :=
  ⟨hx, fun mark hmark hbegins => h.2 mark hmark (hbegins.trans (List.prefix_append x y))⟩

theorem setMembers?_bracket (hx : o.skip x = '[' :: y) :
    setMembers? (fuel + 1) o left? current x =
      match asciiSet? y with
      | some (t, negated, rest) => (o.negate? negated (o.fold t)).bind fun t =>
        setMembers? fuel o left? (current.add t 0) rest
      | none => (bracketed? fuel o y).bind fun (t, depth, rest) =>
        setMembers? fuel o left? (current.add t depth) rest := by
  rw [setMembers?, hx]
  rfl

theorem setMembers?_member (h : BeginsMember (o.skip x)) :
    setMembers? (fuel + 1) o left? current x = (setRange? o (o.skip x)).bind fun (t, rest) =>
      setMembers? fuel o left? (current.add t 0) rest := by
  obtain ⟨hne, hmarks⟩ := h
  have hnot {y : List Char} (mark : List Char)
      (hmark : mark ∈ [[']'], ['&', '&'], ['-', '-'], ['~', '~'], ['[']])
      (hskip : o.skip x = mark ++ y) : False := hmarks mark hmark ⟨y, hskip.symm⟩
  rw [setMembers?]
  dsimp only
  split
  · rename_i hskip
    exact absurd hskip hne
  · rename_i hskip
    exact (hnot [']'] (by decide) hskip).elim
  · rename_i hskip
    exact (hnot ['&', '&'] (by decide) hskip).elim
  · rename_i hskip
    exact (hnot ['-', '-'] (by decide) hskip).elim
  · rename_i hskip
    exact (hnot ['~', '~'] (by decide) hskip).elim
  · rename_i hskip
    exact (hnot ['['] (by decide) hskip).elim
  · rfl

/-- Behind an operator come the members of the next part. -/
theorem MembersTake.operator {op : SetOperator} {d : Char} (ih : MembersTake m)
    (hop : ∀ fuel x y, o.skip x = c :: d :: y → setMembers? (fuel + 1) o left? current x =
      setMembers? fuel o (some (closeSet o left? current, op)) {} y)
    (hskip : o.skip s = c :: d :: y)
    (h : setMembers? m o (some (closeSet o left? current, op)) {} y = some (part, rest)) :
    TakesSkipped o 1 (fun fuel => setMembers? fuel o left? current) 1 s (fun r => (part, r))
      rest := by
  obtain ⟨u, rfl, -, hread⟩ := ih h
  refine ⟨c :: d :: u, hskip, by simp, fun r t hr fuel hfuel x hx => ?_⟩
  simp only [List.cons_append, List.length_cons] at hfuel
  dsimp only
  rw [hop fuel x (u ++ r) hx]
  exact hread r t hr fuel (by omega)

/-- A set with a name, and the members behind it. -/
theorem MembersTake.named {negated : Bool} {t : CharSet} (ih : MembersTake m)
    (hskip : o.skip s = '[' :: y) (hset : asciiSet? y = some (set, negated, mid))
    (ht : o.negate? negated (o.fold set) = some t)
    (h : setMembers? m o left? (current.add t 0) mid = some (part, rest)) :
    TakesSkipped o 1 (fun fuel => setMembers? fuel o left? current) 1 s (fun r => (part, r))
      rest := by
  obtain ⟨u, rfl, hread⟩ := asciiSet?_spec hset
  obtain ⟨u', rfl, -, hmembers⟩ := ih h
  refine ⟨'[' :: (u ++ u'), by simp [hskip], by simp, ?_⟩
  intro r t' hr fuel hfuel x hx
  rw [List.cons_append, List.append_assoc] at hx hfuel
  simp only [List.length_cons, List.length_append] at hfuel
  have hmembers' := hmembers r t' hr fuel (by rw [List.length_append]; omega)
  dsimp only
  rw [setMembers?_bracket hx, hread]
  dsimp only
  rw [ht]
  exact hmembers'

/-- A set in brackets, and the members behind it. -/
theorem MembersTake.bracketed (ih : MembersTake m) (ih' : BracketedTakes m)
    (hskip : o.skip s = '[' :: y) (hnone : asciiSet? y = none)
    (hset : bracketed? m o y = some (set, depth, mid))
    (h : setMembers? m o left? (current.add set depth) mid = some (part, rest)) :
    TakesSkipped o 1 (fun fuel => setMembers? fuel o left? current) 1 s (fun r => (part, r))
      rest := by
  obtain ⟨u, rfl, -, hbracketed⟩ := ih' hset
  obtain ⟨u', rfl, -, hmembers⟩ := ih h
  refine ⟨'[' :: (u ++ u'), by simp [hskip], by simp, ?_⟩
  intro r t hr fuel hfuel x hx
  rw [List.cons_append, List.append_assoc] at hx hfuel
  simp only [List.length_cons, List.length_append] at hfuel
  have hmembers' := hmembers r t hr fuel (by rw [List.length_append]; omega)
  have hbracketed' := hbracketed (u' ++ r) t (by rw [hr, List.append_assoc]) fuel
    (by rw [List.length_append, List.length_append]; omega)
  have hnone' : asciiSet? (u ++ (u' ++ r)) = none := by
    refine asciiSet?_eq_none (')' :: t) ?_
    rw [← hnone, hr]
    simp
  dsimp only at hbracketed' ⊢
  rw [setMembers?_bracket hx, hnone']
  dsimp only
  rw [hbracketed']
  exact hmembers'

/-- A character, a range or an escape, and the members behind it. -/
theorem MembersTake.member (ih : MembersTake m) (hbegins : BeginsMember (o.skip s))
    (hset : setRange? o (o.skip s) = some (set, mid))
    (h : setMembers? m o left? (current.add set 0) mid = some (part, rest)) :
    TakesSkipped o 1 (fun fuel => setMembers? fuel o left? current) 1 s (fun r => (part, r))
      rest := by
  obtain ⟨u, hu, hn, hrange⟩ := takesIf_setRange? hset
  obtain ⟨u', rfl, hn', hmembers⟩ := ih h
  have hne : u' ≠ [] := List.ne_nil_of_length_pos hn'
  refine ⟨u ++ u', by rw [hu, List.append_assoc], by simp; omega, ?_⟩
  intro r t hr fuel hfuel x hx
  rw [List.append_assoc] at hx hfuel
  rw [List.length_append] at hfuel
  have hmembers' := hmembers r t hr fuel (by omega)
  have hrange' := hrange (u' ++ r) t (by rw [hr, List.append_assoc]) (by simp [hne])
  have hs : o.skip s = o.skip x ++ ')' :: t := by rw [hu, hr, hx]; simp
  rw [hs] at hbegins
  dsimp only
  rw [setMembers?_member (hbegins.of_append (by simp [hx, hne])), hx, hrange']
  exact hmembers'

end Members

theorem MembersTake.succ (ih : MembersTake m) (ih' : BracketedTakes m) : MembersTake (m + 1) := by
  intro o left? current s part rest h
  refine TakesSkipped.takesWithin (o := o) Nat.one_pos ?_
  rw [setMembers?] at h
  dsimp only at h
  split at h
  · exact nomatch h
  · rename_i y hskip
    obtain ⟨rfl, rfl⟩ := Prod.mk.inj (Option.some.inj h)
    refine ⟨[']'], hskip, le_rfl, fun r t hr fuel _ x hx => ?_⟩
    dsimp only
    rw [setMembers?, hx]
    rfl
  · rename_i y hskip
    exact ih.operator (fun fuel x y hx => by rw [setMembers?, hx]; rfl) hskip h
  · rename_i y hskip
    exact ih.operator (fun fuel x y hx => by rw [setMembers?, hx]; rfl) hskip h
  · rename_i y hskip
    exact ih.operator (fun fuel x y hx => by rw [setMembers?, hx]; rfl) hskip h
  · rename_i y hskip
    split at h
    · rename_i set negated mid hset
      obtain ⟨t, ht, h⟩ := Option.bind_eq_some_iff.mp h
      exact ih.named hskip hset ht h
    · rename_i hnone
      obtain ⟨⟨set, depth, mid⟩, hset, h⟩ := Option.bind_eq_some_iff.mp h
      exact ih.bracketed ih' hskip hnone hset h
  · rename_i hnil hclose hinter hminus hdifference hopen
    obtain ⟨⟨set, mid⟩, hset, h⟩ := Option.bind_eq_some_iff.mp h
    refine ih.member ⟨hnil, fun mark hmark hbegins => ?_⟩ hset h
    obtain ⟨y, hy⟩ := hbegins
    simp only [List.mem_cons, List.not_mem_nil, or_false] at hmark
    rcases hmark with rfl | rfl | rfl | rfl | rfl
    · exact hclose y hy.symm
    · exact hinter y hy.symm
    · exact hminus y hy.symm
    · exact hdifference y hy.symm
    · exact hopen y hy.symm

theorem MembersTake.bracketed_succ (ih : MembersTake m) : BracketedTakes (m + 1) := by
  intro o s set depth rest h
  rw [bracketed?_succ] at h
  obtain ⟨⟨negated, s₁⟩, hopen⟩ : ∃ x, openSet o s = x := ⟨_, rfl⟩
  obtain ⟨⟨start, s₂⟩, hstart⟩ : ∃ x, startSet o s₁ = x := ⟨_, rfl⟩
  rw [hopen] at h
  dsimp only at h
  rw [hstart] at h
  obtain ⟨⟨part, rest'⟩, hpart, h⟩ := Option.bind_eq_some_iff.mp h
  obtain ⟨set', hset, heq⟩ := Option.bind_eq_some_iff.mp h
  simp only [Option.some.injEq, Prod.mk.injEq] at heq
  obtain ⟨rfl, rfl, rfl⟩ := heq
  have hmap : Takes (fun x => some (negated, startSet o x)) 0 s₁
      (fun r => (negated, start, r)) s₂ := (takes_startSet hstart).map (g := Prod.mk negated)
  have hbefore := (takes_openSet hopen).bind
    (g := fun (x : Bool × List Char) => some (x.1, startSet o x.2)) hmap
  obtain ⟨u, rfl, -, hbefore⟩ := takes_iff.mp hbefore
  obtain ⟨u', rfl, hne, hmembers⟩ := ih hpart
  refine ⟨u ++ u', (List.append_assoc ..).symm, by simp; omega, fun r t hr fuel hfuel => ?_⟩
  have hbefore' := hbefore (u' ++ r) t (by rw [hr, List.append_assoc])
  simp only [Option.bind_some, Option.some.injEq, Prod.mk.injEq] at hbefore'
  rw [List.append_assoc, List.length_append] at hfuel
  obtain ⟨fuel, rfl⟩ : ∃ k, fuel = k + 1 := ⟨fuel - 1, by omega⟩
  have hmembers' := hmembers r t hr fuel (by omega)
  dsimp only at hmembers' ⊢
  rw [List.append_assoc, bracketed?_succ, hbefore'.1, hbefore'.2, hmembers', Option.bind_some]
  simp [hset]

/-- **Sets in brackets** end with their brackets, and use up at most twice their length of fuel. -/
theorem bracketedTakes_and_membersTake (n : Nat) : BracketedTakes n ∧ MembersTake n := by
  induction n with
  | zero =>
    constructor
    · intro o s set depth rest h
      exact nomatch h
    · intro o left? current s part rest h
      exact nomatch h
  | succ n ih => exact ⟨ih.2.bracketed_succ, ih.2.succ ih.1⟩

end MarkupGrammar.Pattern
