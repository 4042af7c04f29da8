import MarkupGrammar.Proofs.Expression.Shift
import MarkupGrammar.Proofs.Lowering.Spec

/-! # Lowering behind other expressions

A table keeps what was lowered before. Lowering from a state `b` appends the nodes that lowering
from an empty state makes, shifted behind those of `b` (`particle_follows`). Numbers of nodes never
decide anything; only a copy reads the table, and it reads nodes that precede the one copied.

`Follows` relates a computation with the one behind `b`: both fail in the same way, or both
succeed and their states stay related. It has one rule for each operation, and from these each part
of lowering gets its lemma. -/

namespace MarkupGrammar

/-- The parts of a node precede it. -/
def ExpressionTable.Ordered (t : ExpressionTable) : Prop :=
  ∀ i e, t.get i = .ok e → ∀ a ∈ e.parts, a < i

namespace ExpressionTable

variable {t : ExpressionTable} {e : Expression} {i : Nat}

theorem exists_get (h : i < t.size) : ∃ e, t.get i = .ok e :=
  ⟨t.nodes[i], get_eq_ok.2 (Array.getElem?_eq_getElem h)⟩

theorem Ordered.empty : ({} : ExpressionTable).Ordered :=
  fun i _ h => (Nat.not_lt_zero i (lt_size_of_get h)).elim

theorem Ordered.push (h : t.Ordered) (he : ∀ a ∈ e.parts, a < t.size) : (t.push e).Ordered := by
  intro i x hx
  rw [get_eq_ok] at hx
  unfold ExpressionTable.push at hx
  rw [Array.getElem?_push] at hx
  split at hx
  · rename_i hi
    rw [hi, ← Option.some.inj hx]
    exact he
  · exact h i x (get_eq_ok.2 hx)

end ExpressionTable

namespace Lowering

/-- The state `s` put behind the state `b`. -/
def behind (b s : Lowering) : Lowering where
  table := ⟨b.table.nodes ++ s.table.nodes.map (Expression.shift b.table.size b.nextParticle)⟩
  nextParticle := b.nextParticle + s.nextParticle

@[simp] theorem nextParticle_behind (b s : Lowering) :
    (b.behind s).nextParticle = b.nextParticle + s.nextParticle := rfl

@[simp] theorem size_behind (b s : Lowering) :
    (b.behind s).table.size = b.table.size + s.table.size := by
  simp [behind, ExpressionTable.size]

@[simp] theorem behind_empty (b : Lowering) : b.behind {} = b := by
  simp [behind]

theorem shifted_behind (b s : Lowering) :
    s.table.Shifted b.table.size b.nextParticle (b.behind s).table := by
  intro i e h
  rw [ExpressionTable.get_eq_ok] at h ⊢
  unfold behind
  dsimp only
  rw [Array.getElem?_append_right (show b.table.nodes.size ≤ b.table.size + i from
    Nat.le_add_right _ _), show b.table.size + i - b.table.nodes.size = i from
    Nat.add_sub_cancel_left .., Array.getElem?_map, h]
  rfl

section Rules

variable {α β α' β' : Type} {b s : Lowering}

/-- What the computation `x` does from `s`, `y` does behind `b`: it ends in the related state, fails
in the same way, or has a related result. Lowering keeps tables in order, also where it fails. -/
def Follows (b s : Lowering) (x : LoweringM α) (y : LoweringM β) (R : α → β → Lowering → Prop) :
    Prop :=
  (x.run.run s).2.table.Ordered ∧ (y.run.run (b.behind s)).2 = b.behind (x.run.run s).2 ∧
    match (x.run.run s).1, (y.run.run (b.behind s)).1 with
    | .ok v, .ok w => R v w (x.run.run s).2
    | .error f, .error f' => f = f'
    | _, _ => False

variable {x : LoweringM α} {y : LoweringM β} {R : α → β → Lowering → Prop}
  {R' : α' → β' → Lowering → Prop}

theorem follows_pure (hs : s.table.Ordered) {v : α} {w : β} (h : R v w s) :
    Follows b s (pure v) (pure w) R := ⟨hs, rfl, h⟩

theorem follows_throw (hs : s.table.Ordered) (f : Failure) :
    Follows b s (throw f : LoweringM α) (throw f : LoweringM β) R := ⟨hs, rfl, rfl⟩

theorem Follows.mono {R' : α → β → Lowering → Prop} (h : Follows b s x y R)
    (hR : ∀ v w s', R v w s' → R' v w s') : Follows b s x y R' := by
  obtain ⟨ho, hb, h⟩ := h
  refine ⟨ho, hb, ?_⟩
  split
  · rename_i v w hv hw
    rw [hv, hw] at h
    exact hR _ _ _ h
  · rename_i f f' hf hf'
    rwa [hf, hf'] at h
  · rename_i h₁ h₂
    split at h
    · exact h₁ _ _ ‹_› ‹_›
    · exact h₂ _ _ ‹_› ‹_›
    · exact h

theorem follows_bind {f : α → LoweringM α'} {g : β → LoweringM β'} (h : Follows b s x y R)
    (hf : ∀ v w s', s'.table.Ordered → R v w s' → Follows b s' (f v) (g w) R') :
    Follows b s (x >>= f) (y >>= g) R' := by
  obtain ⟨ho, hb, h⟩ := h
  unfold Follows
  rw [run_bind, run_bind]
  rcases hx : x.run.run s with ⟨rx, s'⟩
  rcases hy : y.run.run (b.behind s) with ⟨ry, t⟩
  rw [hx, hy] at h hb
  rw [hx] at ho
  obtain rfl : t = b.behind s' := hb
  cases rx <;> cases ry
  · exact ⟨ho, rfl, h⟩
  · exact h.elim
  · exact h.elim
  · exact hf _ _ _ ho h

theorem follows_require (hs : s.table.Ordered) {ε : Type} (cause : ε → Fault.Cause)
    (r : Except ε Unit) :
    Follows b s (require cause r) (require cause r) fun _ _ s' => r = .ok () ∧ s' = s := by
  cases r with
  | ok u => exact follows_pure hs ⟨rfl, rfl⟩
  | error e => exact follows_throw hs _

end Rules

variable {b s s' s'' : Lowering} {i j k n : Nat} {is js : List Nat} {limits : Limits}

/-- A node of a later state, and the node that it is behind `b`. -/
structure InPlace (b s : Lowering) (i j : Nat) (s' : Lowering) : Prop where
  size_le : s.table.size ≤ s'.table.size
  lt_size : i < s'.table.size
  eq : j = b.table.size + i

/-- Nodes of a later state, and the nodes that they are behind `b`. -/
structure AllInPlace (b s : Lowering) (is js : List Nat) (s' : Lowering) : Prop where
  size_le : s.table.size ≤ s'.table.size
  lt_size : ∀ i ∈ is, i < s'.table.size
  eq : js = is.map (b.table.size + ·)

theorem InPlace.after (h : InPlace b s' i j s'') (hs : s.table.size ≤ s'.table.size) :
    InPlace b s i j s'' := ⟨hs.trans h.size_le, h.lt_size, h.eq⟩

theorem AllInPlace.after (h : AllInPlace b s' is js s'') (hs : s.table.size ≤ s'.table.size) :
    AllInPlace b s is js s'' := ⟨hs.trans h.size_le, h.lt_size, h.eq⟩

theorem AllInPlace.nil : AllInPlace b s [] [] s := ⟨Nat.le_refl _, fun _ h => (nomatch h), rfl⟩

theorem AllInPlace.cons (h : InPlace b s i j s') (hs : AllInPlace b s' is js s'') :
    AllInPlace b s (i :: is) (j :: js) s'' := by
  obtain ⟨hle, hlt, rfl⟩ := h
  obtain ⟨hle', hlt', rfl⟩ := hs
  refine ⟨hle.trans hle', fun i' hi => ?_, rfl⟩
  rcases List.mem_cons.1 hi with rfl | hi
  · exact Nat.lt_of_lt_of_le hlt hle'
  · exact hlt' i' hi

theorem follows_self (hs : s.table.Ordered) (hi : i < s.table.size) :
    Follows b s (pure i) (pure (b.table.size + i)) (InPlace b s) :=
  follows_pure hs ⟨Nat.le_refl _, hi, rfl⟩

theorem follows_add (hs : s.table.Ordered) {e : Expression} (he : ∀ a ∈ e.parts, a < s.table.size) :
    Follows b s (add e) (add (e.shift b.table.size b.nextParticle)) (InPlace b s) := by
  refine ⟨hs.push he, ?_, ?_⟩
  · show ({ b.behind s with table := _ } : Lowering) = b.behind { s with table := _ }
    simp [behind, ExpressionTable.push]
  · have hsize := ExpressionTable.size_push s.table e
    exact ⟨hsize ▸ Nat.le_succ _, hsize ▸ Nat.lt_succ_self _, size_behind b s⟩

theorem follows_freshParticle (hs : s.table.Ordered) :
    Follows b s freshParticle freshParticle fun v w s' =>
      w = b.nextParticle + v ∧ s'.table = s.table := ⟨hs, rfl, rfl, rfl⟩

theorem run_get (s : Lowering) : (get : LoweringM Lowering).run.run s = (.ok s, s) := rfl

theorem run_node {e : Expression} (h : s.table.get i = .ok e) :
    (node i).run.run s = (.ok e, s) := by
  unfold node
  rw [run_bind, run_get]
  dsimp only
  rw [h]
  rfl

theorem follows_node (hs : s.table.Ordered) (hi : i < s.table.size) :
    Follows b s (node i) (node (b.table.size + i)) fun e e' s' =>
      e' = e.shift b.table.size b.nextParticle ∧ s' = s ∧ s.table.get i = .ok e := by
  obtain ⟨e, he⟩ := ExpressionTable.exists_get hi
  unfold Follows
  rw [run_node he, run_node (shifted_behind b s i e he)]
  exact ⟨hs, rfl, rfl, rfl, he⟩

/-- A node of one part that has just been made. -/
theorem follows_one {f : Nat → Expression} (hf : ∀ a, (f a).parts = [a])
    (hshift : ∀ a, (f a).shift b.table.size b.nextParticle = f (b.table.size + a))
    {x y : LoweringM Nat} (h : Follows b s x y (InPlace b s)) :
    Follows b s (do add (f (← x))) (do add (f (← y))) (InPlace b s) := by
  refine follows_bind h fun i j s' hs' hi => ?_
  rw [hi.eq, ← hshift]
  refine (follows_add hs' fun a ha => ?_).mono fun _ _ _ h => h.after hi.size_le
  rw [hf, List.mem_singleton] at ha
  exact ha ▸ hi.lt_size

/-- A node of two parts. -/
theorem follows_pair {f : Nat → Nat → Expression} (hf : ∀ i k, (f i k).parts = [i, k])
    (hshift : ∀ i k, (f i k).shift b.table.size b.nextParticle =
      f (b.table.size + i) (b.table.size + k))
    (hs : s.table.Ordered) (hi : i < s.table.size) (hk : k < s.table.size) :
    Follows b s (add (f i k)) (add (f (b.table.size + i) (b.table.size + k))) (InPlace b s) := by
  rw [← hshift]
  refine follows_add hs fun a ha => ?_
  rw [hf] at ha
  rcases List.mem_pair.1 ha with rfl | rfl
  · exact hi
  · exact hk

/-- A node of two parts that are made one after the other. -/
theorem follows_two {f : Nat → Nat → Expression} (hf : ∀ i k, (f i k).parts = [i, k])
    (hshift : ∀ i k, (f i k).shift b.table.size b.nextParticle =
      f (b.table.size + i) (b.table.size + k))
    {x y x' y' : LoweringM Nat} (h : Follows b s x y (InPlace b s))
    (h' : ∀ s', s'.table.Ordered → s.table.size ≤ s'.table.size →
      Follows b s' x' y' (InPlace b s')) :
    Follows b s (do let i ← x; let k ← x'; add (f i k)) (do let i ← y; let k ← y'; add (f i k))
      (InPlace b s) := by
  refine follows_bind h fun i j s₁ hs₁ hi => ?_
  refine follows_bind (h' s₁ hs₁ hi.size_le) fun k k' s₂ hs₂ hk => ?_
  rw [hi.eq, hk.eq]
  exact (follows_pair hf hshift hs₂ (hi.lt_size.trans_le hk.size_le) hk.lt_size).mono
    fun _ _ _ h => h.after (hi.size_le.trans hk.size_le)

/-! ## Copies -/

/-- A copy reads nodes that precede the one copied, so there is fuel for all of them. -/
theorem follows_copyWithin {fuel fuel' : Nat} (hf : i < fuel) (hf' : b.table.size + i < fuel')
    (hs : s.table.Ordered) (hi : i < s.table.size) :
    Follows b s (copyWithin fuel i) (copyWithin fuel' (b.table.size + i)) (InPlace b s) := by
  induction i using Nat.strong_induction_on generalizing fuel fuel' s with
  | _ i ih =>
    obtain ⟨fuel, rfl⟩ := Nat.exists_eq_add_of_le' (Nat.one_le_of_lt hf)
    obtain ⟨fuel', rfl⟩ := Nat.exists_eq_add_of_le' (Nat.one_le_of_lt hf')
    refine follows_bind (follows_node hs hi) fun e e' s₁ hs₁ h => ?_
    obtain ⟨rfl, rfl, he⟩ := h
    have copyPart {a : Nat} (ha : a ∈ e.parts) (s' : Lowering) (hs' : s'.table.Ordered)
        (hle : s₁.table.size ≤ s'.table.size) : Follows b s' (copyWithin fuel a)
          (copyWithin fuel' (b.table.size + a)) (InPlace b s') := by
      have hlt := hs₁ i e he a ha
      exact ih a hlt (by omega) (by omega) hs' (by omega)
    have copyFirst {a : Nat} (ha : a ∈ e.parts) := copyPart ha s₁ hs₁ (Nat.le_refl _)
    cases e with
    | leaf l p => exact follows_add hs₁ fun _ h => nomatch h
    | choice x y =>
      exact follows_two (fun _ _ => rfl) (fun _ _ => rfl) (copyFirst (.head _))
        (copyPart (.tail _ (.head _)))
    | sequence x y =>
      exact follows_two (fun _ _ => rfl) (fun _ _ => rfl) (copyFirst (.head _))
        (copyPart (.tail _ (.head _)))
    | optional x => exact follows_one (fun _ => rfl) (fun _ => rfl) (copyFirst (.head _))
    | zeroOrMore x => exact follows_one (fun _ => rfl) (fun _ => rfl) (copyFirst (.head _))
    | oneOrMore x => exact follows_one (fun _ => rfl) (fun _ => rfl) (copyFirst (.head _))
    | empty => exact follows_add hs₁ fun _ h => nomatch h

theorem follows_copy (hs : s.table.Ordered) (hi : i < s.table.size) :
    Follows b s (copy i) (copy (b.table.size + i)) (InPlace b s) :=
  follows_copyWithin (Nat.lt_succ_self _) (Nat.lt_succ_self _) hs hi

theorem follows_copies (hs : s.table.Ordered) (hi : i < s.table.size) :
    Follows b s (copies i n) (copies (b.table.size + i) n) (AllInPlace b s) := by
  induction n generalizing s with
  | zero => exact follows_pure hs .nil
  | succ n ih =>
    refine follows_bind (follows_copy hs hi) fun c c' s₁ hs₁ hc => ?_
    refine follows_bind (ih hs₁ (hi.trans_le hc.size_le)) fun cs cs' s₂ hs₂ hcs => ?_
    exact follows_pure hs₂ (.cons hc hcs)

/-! ## Groups -/

theorem follows_foldlM (c : Compositor) (hs : s.table.Ordered) (hi : i < s.table.size)
    (his : ∀ k ∈ is, k < s.table.size) :
    Follows b s (is.foldlM (fun a k => add (combine.node c a k)) i)
      ((is.map (b.table.size + ·)).foldlM (fun a k => add (combine.node c a k)) (b.table.size + i))
      (InPlace b s) := by
  induction is generalizing s i with
  | nil => exact follows_self hs hi
  | cons k is ih =>
    have hnode : Follows b s (add (combine.node c i k))
        (add (combine.node c (b.table.size + i) (b.table.size + k))) (InPlace b s) := by
      unfold combine.node
      split
      · exact follows_pair (fun _ _ => rfl) (fun _ _ => rfl) hs hi (his k (.head _))
      · exact follows_pair (fun _ _ => rfl) (fun _ _ => rfl) hs hi (his k (.head _))
    rw [List.map_cons, List.foldlM_cons, List.foldlM_cons]
    refine follows_bind hnode fun j j' s₁ hs₁ hj => ?_
    rw [hj.eq]
    exact (ih hs₁ hj.lt_size fun k hk => (his k (.tail _ hk)).trans_le hj.size_le).mono
      fun _ _ _ h => h.after hj.size_le

theorem follows_combine (c : Compositor) (hs : s.table.Ordered)
    (his : ∀ k ∈ is, k < s.table.size) :
    Follows b s (combine c is) (combine c (is.map (b.table.size + ·))) (InPlace b s) := by
  cases is with
  | nil => exact follows_add hs fun _ h => nomatch h
  | cons i is => exact follows_foldlM c hs (his i (.head _)) fun k hk => his k (.tail _ hk)

/-! ## Occurrence ranges -/

theorem follows_optionalAround (hs : s.table.Ordered) (hi : i < s.table.size)
    (hk : k < s.table.size) :
    Follows b s (optionalAround i k n) (optionalAround (b.table.size + i) (b.table.size + k) n)
      (InPlace b s) := by
  induction n generalizing s k with
  | zero => exact follows_self hs hk
  | succ n ih =>
    refine follows_bind (follows_copy hs hi) fun c c' s₁ hs₁ hc => ?_
    rw [hc.eq]
    refine follows_bind (follows_pair (f := .sequence) (fun _ _ => rfl) (fun _ _ => rfl) hs₁
      hc.lt_size (hk.trans_le hc.size_le)) fun p p' s₂ hs₂ hp => ?_
    rw [hp.eq]
    refine follows_bind (follows_add hs₂ (e := .optional p) fun a ha => ?_)
      fun o o' s₃ hs₃ ho => ?_
    · exact List.mem_singleton.1 ha ▸ hp.lt_size
    · have hle := hc.size_le.trans (hp.size_le.trans ho.size_le)
      rw [ho.eq]
      exact (ih hs₃ (hi.trans_le hle) ho.lt_size).mono fun _ _ _ h => h.after hle

theorem follows_firsts (required : Nat) (hs : s.table.Ordered) (hi : i < s.table.size) :
    Follows b s (firsts required i) (firsts required (b.table.size + i)) (AllInPlace b s) := by
  unfold firsts
  split
  · exact follows_pure hs .nil
  · rw [map_eq_pure_bind, map_eq_pure_bind]
    refine follows_bind (follows_copies hs hi) fun cs cs' s₁ hs₁ hcs => ?_
    exact follows_pure hs₁ (.cons ⟨Nat.le_refl _, hi, rfl⟩ hcs)

theorem follows_last (required : Nat) (hs : s.table.Ordered) (hi : i < s.table.size) :
    Follows b s (last required i) (last required (b.table.size + i)) (InPlace b s) := by
  unfold last
  split
  · exact follows_self hs hi
  · exact follows_copy hs hi

theorem InPlace.single (h : InPlace b s i j s') : AllInPlace b s [i] [j] s' :=
  .cons h .nil

theorem follows_optionalRest {x y : LoweringM Nat} (min : Nat) (max : Option Nat)
    (hs : s.table.Ordered) (hi : i < s.table.size) (hx : Follows b s x y (InPlace b s)) :
    Follows b s (optionalRest x i min max) (optionalRest y (b.table.size + i) min max)
      (AllInPlace b s) := by
  cases max with
  | none =>
    simp only [optionalRest, ← bind_assoc]
    refine follows_bind (follows_one (f := .oneOrMore) (fun _ => rfl) (fun _ => rfl) hx)
      fun r r' s₁ hs₁ hr => ?_
    exact follows_pure hs₁ hr.single
  | some max =>
    simp only [optionalRest]
    split
    · rw [← bind_assoc x, ← bind_assoc y]
      refine follows_bind (follows_one (f := .optional) (fun _ => rfl) (fun _ => rfl) hx)
        fun o o' s₁ hs₁ ho => ?_
      rw [ho.eq]
      refine follows_bind (follows_optionalAround hs₁ (hi.trans_le ho.size_le) ho.lt_size)
        fun r r' s₂ hs₂ hr => ?_
      exact follows_pure hs₂ (hr.after ho.size_le).single
    · exact follows_pure hs .nil

theorem follows_expand (min : Nat) (max : Option Nat) (hs : s.table.Ordered)
    (hi : i < s.table.size) :
    Follows b s (expand i min max) (expand (b.table.size + i) min max) (InPlace b s) := by
  rw [expand_eq, expand_eq]
  refine follows_bind (follows_firsts _ hs hi) fun fs fs' s₁ hs₁ hfs => ?_
  have hi₁ := hi.trans_le hfs.size_le
  refine follows_bind (follows_optionalRest min max hs₁ hi₁ (follows_last _ hs₁ hi₁))
    fun rs rs' s₂ hs₂ hrs => ?_
  rw [hfs.eq, hrs.eq, ← List.map_append]
  refine (follows_combine .sequence hs₂ fun k hk => ?_).mono
    fun _ _ _ h => h.after (hfs.size_le.trans hrs.size_le)
  rcases List.mem_append.1 hk with hk | hk
  · exact (hfs.lt_size k hk).trans_le hrs.size_le
  · exact hrs.lt_size k hk

theorem follows_repeated (limits : Limits) (o : Occurs) (hs : s.table.Ordered)
    (hi : i < s.table.size) :
    Follows b s (repeated limits i o) (repeated limits (b.table.size + i) o) (InPlace b s) := by
  have hpart {f : Nat → Expression} (hf : ∀ a, (f a).parts = [a]) :
      ∀ a ∈ (f i).parts, a < s.table.size := fun a ha =>
    List.mem_singleton.1 (hf i ▸ ha) ▸ hi
  obtain ⟨min, max⟩ := o
  dsimp only [repeated]
  split
  · exact follows_self hs hi
  · exact follows_add hs (e := .optional i) (hpart fun _ => rfl)
  · exact follows_add hs (e := .zeroOrMore i) (hpart fun _ => rfl)
  · exact follows_add hs (e := .oneOrMore i) (hpart fun _ => rfl)
  · refine follows_bind (follows_require hs .limit _) fun _ _ s₁ hs₁ h => ?_
    obtain ⟨-, rfl⟩ := h
    exact follows_expand _ _ hs₁ hi

/-! ## Particles -/

mutual
/-- **Lowering a particle behind other expressions makes the same nodes, shifted.** -/
theorem particle_follows (limits : Limits) : ∀ (p : Particle) {s : Lowering}, s.table.Ordered →
    Follows b s (particle limits p) (particle limits p) (InPlace b s)
  | .leaf l o, s, hs => by
    unfold particle
    refine follows_bind (follows_require hs .occurs _) fun _ _ s₁ hs₁ h => ?_
    obtain ⟨-, rfl⟩ := h
    split
    · exact follows_add hs₁ fun _ h => nomatch h
    · refine follows_bind (follows_freshParticle hs₁) fun v w s₂ hs₂ h => ?_
      obtain ⟨rfl, ht⟩ := h
      refine follows_bind (follows_add hs₂ (e := .leaf l v) fun _ h => nomatch h)
        fun i j s₃ hs₃ hi => ?_
      rw [hi.eq]
      exact (follows_repeated limits o hs₃ hi.lt_size).mono
        fun _ _ _ h => h.after (ht ▸ hi.size_le)
  | .group c ms o, s, hs => by
    unfold particle
    refine follows_bind (follows_require hs .occurs _) fun _ _ s₁ hs₁ h => ?_
    obtain ⟨-, rfl⟩ := h
    split
    · exact follows_add hs₁ fun _ h => nomatch h
    · split
      · exact follows_throw hs₁ _
      · refine follows_bind (particles_follows limits ms hs₁) fun is js s₂ hs₂ his => ?_
        rw [his.eq]
        refine follows_bind (follows_combine c hs₂ his.lt_size) fun i j s₃ hs₃ hi => ?_
        rw [hi.eq]
        exact (follows_repeated limits o hs₃ hi.lt_size).mono
          fun _ _ _ h => h.after (his.size_le.trans hi.size_le)

theorem particles_follows (limits : Limits) : ∀ (ps : List Particle) {s : Lowering},
    s.table.Ordered → Follows b s (particles limits ps) (particles limits ps) (AllInPlace b s)
  | [], s, hs => follows_pure hs .nil
  | p :: ps, s, hs => by
    unfold particles
    refine follows_bind (particle_follows limits p hs) fun i j s₁ hs₁ hi => ?_
    refine follows_bind (particles_follows limits ps hs₁) fun is js s₂ hs₂ his => ?_
    exact follows_pure hs₂ (.cons hi his)
end

end Lowering

end MarkupGrammar
