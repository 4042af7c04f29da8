import MarkupGrammar.Proofs.Substitution

/-! # Groups that are declared by pairs

The direct members of a head are those that it is paired with (`declares_ofPairs`), and all that a
comparator answers follows from the steps to direct members (`comparator_congr`). So the order in
which the pairs are declared makes no difference (`comparator_ofPairs_of_perm`). -/

namespace MarkupGrammar.Substitutions

section

variable {s s' : Substitutions} {head member h m : Name} {pairs pairs' : List (Name × Name)}

/-! ## Pairs -/

theorem mem_lookup_insertInto {groups : List (Name × List Name)} :
    m ∈ ((insertInto head member groups).lookup h).getD [] ↔
      (h = head ∧ m = member) ∨ m ∈ (groups.lookup h).getD [] := by
  induction groups with
  | nil =>
    unfold insertInto
    rw [List.lookup_cons, List.lookup_nil]
    by_cases hh : h = head
    · simp [hh]
    · have hne : (h == head) = false := beq_false_of_ne hh
      rw [hne]
      simp [hh]
  | cons x groups ih =>
    obtain ⟨first, ms⟩ := x
    unfold insertInto
    by_cases hf : first = head
    · subst hf
      rw [if_pos rfl, List.lookup_cons, List.lookup_cons]
      by_cases hh : h = first
      · subst hh
        by_cases hm : ms.contains member
        · rw [List.contains_iff_mem] at hm
          simp only [beq_self_eq_true, List.contains_iff_mem, if_pos hm, Option.getD_some, true_and]
          exact ⟨.inr, fun h => h.elim (fun h => h ▸ hm) id⟩
        · simp only [beq_self_eq_true, if_neg hm, Option.getD_some, List.mem_append,
            List.mem_singleton, true_and]
          exact or_comm
      · have hne : (h == first) = false := beq_false_of_ne hh
        rw [hne]
        simp [hh]
    · rw [if_neg hf, List.lookup_cons, List.lookup_cons]
      by_cases hh : h = first
      · subst hh
        simp [hf]
      · have hne : (h == first) = false := beq_false_of_ne hh
        rw [hne]
        exact ih

theorem declares_add : (s.add head member).Declares h m ↔
    (h = head ∧ m = member) ∨ s.Declares h m := mem_lookup_insertInto

/-- **The direct members of a head** are those that it is paired with. -/
theorem declares_ofPairs : (ofPairs pairs).Declares h m ↔ (h, m) ∈ pairs := by
  have hfold (s : Substitutions) :
      (pairs.foldl (fun s (x : Name × Name) => s.add x.1 x.2) s).Declares h m ↔
        (h, m) ∈ pairs ∨ s.Declares h m := by
    induction pairs generalizing s with
    | nil => simp
    | cons x pairs ih =>
      rw [List.foldl_cons, ih, declares_add, List.mem_cons, Prod.ext_iff, ← or_assoc,
        or_comm (a := (h, m) ∈ pairs)]
  refine (hfold {}).trans (or_iff_left fun hm => ?_)
  exact absurd hm List.not_mem_nil

theorem isEmpty_add (s : Substitutions) (head member : Name) :
    (s.add head member).isEmpty = false := by
  unfold add isEmpty
  cases s.groups with
  | nil => rfl
  | cons x groups =>
    unfold insertInto
    split <;> rfl

theorem isEmpty_ofPairs (pairs : List (Name × Name)) : (ofPairs pairs).isEmpty = pairs.isEmpty := by
  cases pairs with
  | nil => rfl
  | cons x pairs =>
    refine List.foldlRecOn (motive := fun s : Substitutions => s.isEmpty = false) pairs _
      (isEmpty_add {} x.1 x.2) fun s _ y _ => isEmpty_add s y.1 y.2

/-! ## What a comparator answers -/

theorem canSubstitute_congr (hs : ∀ h m, s.Declares h m ↔ s'.Declares h m) (a b : Name) :
    s.canSubstitute a b = s'.canSubstitute a b := by
  have hdeclares : s.Declares = s'.Declares := funext₂ fun h m => propext (hs h m)
  rw [Bool.eq_iff_iff, canSubstitute_iff, canSubstitute_iff, hdeclares]

/-- A name or one that may stand for it has a property. -/
theorem any_substitutes_iff {p : Name → Bool} :
    (p h || (s.substitutes h).any p) = true ↔ ∃ m, s.canSubstitute h m ∧ p m := by
  rw [Bool.or_eq_true, List.any_eq_true]
  unfold canSubstitute
  simp only [Bool.or_eq_true, beq_iff_eq, List.contains_iff_mem]
  constructor
  · rintro (hp | ⟨m, hm, hp⟩)
    · exact ⟨h, .inl rfl, hp⟩
    · exact ⟨m, .inr hm, hp⟩
  · rintro ⟨m, rfl | hm, hp⟩
    · exact .inl hp
    · exact .inr ⟨m, hm, hp⟩

/-- **A comparator** is determined by the steps to direct members. -/
theorem comparator_congr (hs : ∀ h m, s.Declares h m ↔ s'.Declares h m) :
    s.comparator = s'.comparator := by
  unfold comparator
  congr 1
  · funext a b
    rw [canSubstitute_congr hs, canSubstitute_congr hs]
  · funext n space outside
    dsimp only
    congr 1
    rw [Bool.eq_iff_iff]
    refine (any_substitutes_iff (p := fun m => m.isIn space != outside)).trans ?_
    refine Iff.trans ?_ (any_substitutes_iff (p := fun m => m.isIn space != outside)).symm
    simp only [canSubstitute_congr hs]

/-- **The order of pairs makes no difference.** -/
theorem comparator_ofPairs_of_perm (hp : pairs'.Perm pairs) :
    (ofPairs pairs').comparator = (ofPairs pairs).comparator :=
  comparator_congr fun h m => by rw [declares_ofPairs, declares_ofPairs, hp.mem_iff]

end

/-! ## The closure of declared pairs

A table that is declared by pairs of a head and a member answers by the closure of the pairs
(`isClosure_ofPairs`): the search for the names that may stand for a head ends, also where pairs
form a cycle, with the names other than the head that one or more pairs lead to, each found once.
What a comparator answers about two names, and about a name and a namespace, is said of these
names. -/

variable {s : Substitutions} {head n : Name} {links : Name → Name → Prop}

/-! ## Names that are found -/

/-- The head is not found by any round. -/
theorem head_not_mem_after {x y : List Name × List Name} (h : head ∉ x.2)
    (hxy : Relation.ReflTransGen (s.Round head) x y) : head ∉ y.2 := by
  induction hxy with
  | refl => exact h
  | tail _ hround ih =>
    cases hround with
    | look current pending found =>
      intro hmem
      rcases List.mem_append.mp hmem with hmem | hmem
      · exact ih hmem
      · exact (mem_fresh.mp hmem).2.1 rfl

/-- **The names that are found** are those other than the head that steps to direct members lead
to. -/
theorem mem_substitutes_iff :
    n ∈ s.substitutes head ↔ n ≠ head ∧ Relation.TransGen s.Declares head n := by
  have hno : head ∉ s.substitutes head :=
    head_not_mem_after (x := ([head], [])) List.not_mem_nil (s.rounds_substitutes head)
  have h : (head = n ∨ n ∈ s.substitutes head) ↔ Relation.ReflTransGen s.Declares head n := by
    rw [← canSubstitute_iff]
    simp [canSubstitute]
  rw [Relation.reflTransGen_iff_eq_or_transGen] at h
  constructor
  · intro hn
    have hne : n ≠ head := fun heq => hno (heq ▸ hn)
    exact ⟨hne, (h.mp (.inr hn)).resolve_left hne⟩
  · rintro ⟨hne, hn⟩
    exact (h.mpr (.inr hn)).resolve_left hne.symm

theorem canSubstitute_iff_mem : s.canSubstitute head n ↔ n = head ∨ n ∈ s.substitutes head := by
  simp only [canSubstitute, Bool.or_eq_true, beq_iff_eq, List.contains_iff_mem, eq_comm (a := head)]

/-! ## Answers -/

theorem related_self (s : Substitutions) (n : Name) : s.comparator.related n n = .ok true := by
  simp [comparator, canSubstitute_self]

theorem related_comm (s : Substitutions) (a b : Name) :
    s.comparator.related a b = s.comparator.related b a :=
  congrArg Except.ok (Bool.or_comm _ _)

/-- The answer about a namespace is one about the names that may stand for the name. -/
theorem exists_reaches_eq (s : Substitutions) (n : Name) (space : Option String) (outside : Bool) :
    ∃ b, s.comparator.reaches n space outside = .ok b ∧ (b ↔ ∃ m, s.canSubstitute n m ∧
      if outside then m.space ≠ space else m.space = space) := by
  refine ⟨_, rfl, (any_substitutes_iff (p := fun m => m.isIn space != outside)).trans ?_⟩
  cases outside <;> simp [Name.isIn]

/-- The answers of a table are those of the closure of `links` from heads to members. -/
structure IsClosure (s : Substitutions) (links : Name → Name → Prop) : Prop where
  /-- Rounds of the search lead from the head alone to nothing pending. -/
  ends (head : Name) :
    Relation.ReflTransGen (s.Round head) ([head], []) ([], s.substitutes head)
  nodup (head : Name) : (s.substitutes head).Nodup
  mem_substitutes (head n : Name) :
    n ∈ s.substitutes head ↔ n ≠ head ∧ Relation.TransGen links head n
  canSubstitute (head n : Name) : s.canSubstitute head n ↔ n = head ∨ n ∈ s.substitutes head
  related_self (n : Name) : s.comparator.related n n = .ok true
  related_comm (a b : Name) : s.comparator.related a b = s.comparator.related b a
  related (a b : Name) : ∃ r, s.comparator.related a b = .ok r ∧
    (r ↔ s.canSubstitute a b ∨ s.canSubstitute b a)
  /-- A name or one that may stand for it is in a namespace, or outside of it. -/
  reaches (head : Name) (space : Option String) (outside : Bool) :
    ∃ r, s.comparator.reaches head space outside = .ok r ∧
      (r ↔ ∃ m, (m = head ∨ m ∈ s.substitutes head) ∧
        if outside then m.space ≠ space else m.space = space)

/-- **A table that is declared by pairs answers by the closure of the pairs**, whatever the pairs
are. -/
theorem isClosure_ofPairs (pairs : List (Name × Name)) :
    (ofPairs pairs).IsClosure fun head member => (head, member) ∈ pairs where
  ends head := (ofPairs pairs).rounds_substitutes head
  nodup head := ((ofPairs pairs).searching_substitutes head).nodup
  mem_substitutes head n := by
    have hdeclares : (ofPairs pairs).Declares = fun head member => (head, member) ∈ pairs :=
      funext₂ fun head member => propext declares_ofPairs
    rw [mem_substitutes_iff, hdeclares]
  canSubstitute head n := canSubstitute_iff_mem
  related_self n := (ofPairs pairs).related_self n
  related_comm a b := (ofPairs pairs).related_comm a b
  related a b := ⟨_, rfl, by simp⟩
  reaches head space outside := by
    simp only [← canSubstitute_iff_mem]
    exact (ofPairs pairs).exists_reaches_eq head space outside

/-- A cycle of three, in which one pair is repeated and one is of a name with itself. -/
example :
    let a := Name.unqualified "a"
    let b := Name.unqualified "b"
    let c := Name.qualified "urn:c" "c"
    (ofPairs [(a, b), (b, c), (a, b), (b, b), (c, a)]).substitutes b = [c, a] := by
  decide

end MarkupGrammar.Substitutions
