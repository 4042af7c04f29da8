import MarkupGrammar.Proofs.Automaton.Setup
import MarkupGrammar.Proofs.Outcome

/-! # The states found

The construction works off sets of positions from the first one on. When it ends, every set found
has a state whose transitions lead to the sets of its moves, and no set has an overlap
(`explore_spec`); the fuel is enough, as there are no more sets than the limit allows. It ends early
for too many sets or for a set with an overlap, to which moves lead from the first one. It does not
end early where moves stay in a list of sets that has no overlap and is no longer than the limit
(`explore_ok`). -/

namespace MarkupGrammar

namespace Construction

variable {c : Option Comparator} {limits : Limits} {k : Setup} {start set : NumberSet}
  {found found' : Array NumberSet} {done states : Array AutomatonState}

/-- The first pair of overlapping leaves of a set. -/
def overlapIn (c : Option Comparator) (k : Setup) (set : NumberSet) : Option (Leaf × Leaf) :=
  overlap? c ((members k set).filterMap (k.positions[·]?))

/-- The sets that moves lead to through sets without overlaps. -/
inductive Reached (c : Option Comparator) (k : Setup) (start : NumberSet) : NumberSet → Prop
  | start : Reached c k start start
  | move {set x} (h : Reached c k start set) (ho : overlapIn c k set = none)
      (hx : x ∈ moves k set) : Reached c k start x.2

/-- The transition is the move, with the number of the set that it leads to. -/
def Leads (found : Array NumberSet) (x : Nat × NumberSet) (y : Nat × Nat) : Prop :=
  y.1 = x.1 ∧ found[y.2]? = some x.2

/-- The state is that of the set. -/
structure Worked (c : Option Comparator) (k : Setup) (found : Array NumberSet) (set : NumberSet)
    (st : AutomatonState) : Prop where
  overlap : overlapIn c k set = none
  accepting : st.accepting = set.contains k.endMark
  transitions : List.Forall₂ (Leads found) (moves k set) st.transitions

/-- All sets found have states. -/
structure Explored (c : Option Comparator) (k : Setup) (start : NumberSet)
    (found : Array NumberSet) (states : Array AutomatonState) : Prop where
  size : states.size = found.size
  first : found[0]? = some start
  reached (i : Nat) (set : NumberSet) (h : found[i]? = some set) : Reached c k start set
  state (i : Nat) (st : AutomatonState) (h : states[i]? = some st) :
    ∃ set, found[i]? = some set ∧ Worked c k found set st

/-- What holds while sets are worked off. -/
structure Progress (c : Option Comparator) (limits : Limits) (k : Setup) (start : NumberSet)
    (found : Array NumberSet) (done : Array AutomatonState) : Prop where
  le : done.size ≤ found.size
  bound : found.size ≤ max 1 limits.maxStates
  first : found[0]? = some start
  reached (i : Nat) (set : NumberSet) (h : found[i]? = some set) : Reached c k start set
  state (i : Nat) (st : AutomatonState) (h : done[i]? = some st) :
    ∃ set, found[i]? = some set ∧ Worked c k found set st

/-! ## Numbers of targets -/

/-- The sets found before are still there, with their numbers. -/
def Keeps (found found' : Array NumberSet) : Prop :=
  ∀ (i : Nat) (set : NumberSet), found[i]? = some set → found'[i]? = some set

theorem Keeps.size_le (h : Keeps found found') : found.size ≤ found'.size := by
  by_contra hlt
  have hi : found'.size < found.size := not_le.mp hlt
  have := h _ _ (Array.getElem?_eq_getElem hi)
  simp at this

theorem Worked.keeps {st : AutomatonState} (h : Worked c k found set st) (hk : Keeps found found') :
    Worked c k found' set st where
  overlap := h.overlap
  accepting := h.accepting
  transitions := h.transitions.imp fun _ _ hl => ⟨hl.1, hk _ _ hl.2⟩

/-- What numbering the targets of moves yields. -/
structure Numbered (limits : Limits) (found : Array NumberSet) (ms : List (Nat × NumberSet))
    (ts : List (Nat × Nat)) (found' : Array NumberSet) : Prop where
  keeps : Keeps found found'
  bound : found.size ≤ max 1 limits.maxStates → found'.size ≤ max 1 limits.maxStates
  leads : List.Forall₂ (Leads found') ms ts
  new (i : Nat) (set : NumberSet) (h : found'[i]? = some set) :
    found[i]? = some set ∨ ∃ x ∈ ms, x.2 = set

/-- One target: the set is there or is appended. -/
theorem numbered_cons {x : Nat × NumberSet} {ms : List (Nat × NumberSet)} {ts : List (Nat × Nat)}
    {id : Nat} {found₁ : Array NumberSet} (hk : Keeps found found₁) (hid : found₁[id]? = some x.2)
    (hb : found.size ≤ max 1 limits.maxStates → found₁.size ≤ max 1 limits.maxStates)
    (hnew : ∀ (i : Nat) (set : NumberSet), found₁[i]? = some set →
      found[i]? = some set ∨ x.2 = set)
    (h : Numbered limits found₁ ms ts found') :
    Numbered limits found (x :: ms) ((x.1, id) :: ts) found' where
  keeps i set hi := h.keeps i set (hk i set hi)
  bound hle := h.bound (hb hle)
  leads := .cons ⟨rfl, h.keeps id x.2 hid⟩ h.leads
  new i set hi := by
    rcases h.new i set hi with hi | ⟨y, hy, rfl⟩
    · rcases hnew i set hi with hi | rfl
      · exact .inl hi
      · exact .inr ⟨x, List.mem_cons_self, rfl⟩
    · exact .inr ⟨y, List.mem_cons_of_mem _ hy, rfl⟩

theorem check_eq_ok {q : Limits.Quantity} {n : Nat} : limits.check q n = .ok () ↔
    n ≤ limits.maximum q := by
  simp [Limits.check]

theorem numberTargets_spec {ms : List (Nat × NumberSet)} {ts : List (Nat × Nat)}
    (h : numberTargets limits found ms = .ok (ts, found')) :
    Numbered limits found ms ts found' := by
  induction ms generalizing found ts with
  | nil =>
    obtain ⟨rfl, rfl⟩ : [] = ts ∧ found = found' := by simpa [numberTargets] using h
    exact ⟨fun _ _ => id, id, .nil, fun _ _ => .inl⟩
  | cons x ms ih =>
    obtain ⟨s, target⟩ := x
    unfold numberTargets at h
    dsimp only at h
    split at h
    · rename_i j hj
      rw [pure_bind] at h
      obtain ⟨⟨rest, found₁⟩, hrest, h⟩ := of_bind_eq_ok h
      obtain ⟨rfl, rfl⟩ : (s, j) :: rest = ts ∧ found₁ = found' := by
        simpa [pure, Except.pure] using h
      exact numbered_cons (fun _ _ => id) (getElem?_of_idxOf? hj) id (fun _ _ => .inl) (ih hrest)
    · obtain ⟨⟨⟩, hcheck, h⟩ := of_bind_eq_ok h
      rw [pure_bind] at h
      obtain ⟨⟨rest, found₁⟩, hrest, h⟩ := of_bind_eq_ok h
      obtain ⟨rfl, rfl⟩ : (s, found.size) :: rest = ts ∧ found₁ = found' := by
        simpa [pure, Except.pure] using h
      have hle : found.size + 1 ≤ limits.maxStates := check_eq_ok.mp hcheck
      refine numbered_cons (fun _ _ => getElem?_push_of_some) (by simp) (fun _ => ?_) ?_ (ih hrest)
      · rw [Array.size_push]
        omega
      · intro i set hi
        rw [Array.getElem?_push] at hi
        split at hi
        · exact .inr (Option.some.inj hi)
        · exact .inl hi

/-! ## Working off -/

theorem progress_first (c : Option Comparator) (limits : Limits) (k : Setup) (start : NumberSet) :
    Progress c limits k start #[start] #[] where
  le := Nat.zero_le _
  bound := Nat.le_max_left _ _
  first := rfl
  reached i set h := by
    obtain ⟨hi, rfl⟩ := Array.getElem?_eq_some_iff.mp h
    obtain rfl : i = 0 := by simpa using hi
    exact .start
  state i st h := by simp at h

/-- The state of one more set. -/
theorem progress_push {ts : List (Nat × Nat)} (h : Progress c limits k start found done)
    (hset : found[done.size]? = some set) (ho : overlapIn c k set = none)
    (hn : Numbered limits found (moves k set) ts found') :
    Progress c limits k start found' (done.push ⟨ts, set.contains k.endMark⟩) where
  le := by
    have hlt := (Array.getElem?_eq_some_iff.mp hset).1
    have := hn.keeps.size_le
    rw [Array.size_push]
    omega
  bound := hn.bound h.bound
  first := hn.keeps 0 start h.first
  reached i set' hi := by
    rcases hn.new i set' hi with hi | ⟨x, hx, rfl⟩
    · exact h.reached i set' hi
    · exact .move (h.reached _ _ hset) ho hx
  state i st hi := by
    rw [Array.getElem?_push] at hi
    split at hi
    · rename_i hi'
      subst hi'
      obtain rfl := Option.some.inj hi
      exact ⟨set, hn.keeps _ _ hset, ho, rfl, hn.leads⟩
    · obtain ⟨set', hset', hw⟩ := h.state i st hi
      exact ⟨set', hn.keeps _ _ hset', hw.keeps hn.keeps⟩

/-- How working off ends. -/
def Outcome (c : Option Comparator) (k : Setup) (start : NumberSet) :
    Except Fault.Cause (Array AutomatonState) → Prop
  | .ok states => ∃ found, Explored c k start found states
  | .error cause => (∃ excess, cause = .limit excess) ∨
      ∃ set a b, Reached c k start set ∧ overlapIn c k set = some (a, b) ∧
        cause = .ambiguousModel a b

theorem explored_of_progress (h : Progress c limits k start found done)
    (hle : found.size ≤ done.size) : Outcome c k start (.ok done) :=
  ⟨found, le_antisymm h.le hle, h.first, h.reached, h.state⟩

theorem explore_outcome {fuel : Nat} (h : Progress c limits k start found done)
    (hf : limits.maxStates + 1 ≤ fuel + done.size) :
    Outcome c k start (explore c limits k fuel found done) := by
  induction fuel generalizing found done with
  | zero =>
    have := h.bound
    exact explored_of_progress h (by omega)
  | succ fuel ih =>
    unfold explore
    split
    · rename_i hnone
      exact explored_of_progress h (Array.getElem?_eq_none_iff.mp hnone)
    · rename_i set hset
      split
      · rename_i a b ho
        exact .inr ⟨set, a, b, h.reached _ _ hset, ho, rfl⟩
      · rename_i ho
        split
        · rename_i excess _
          exact .inl ⟨excess, rfl⟩
        · rename_i ts found' hn
          refine ih (progress_push h hset ho (numberTargets_spec hn)) ?_
          rw [Array.size_push]
          omega

/-- **The construction finds all sets that moves lead to, unless one has an overlap or there are
too many.** -/
theorem explore_spec (c : Option Comparator) (limits : Limits) (k : Setup) (start : NumberSet) :
    Outcome c k start (explore c limits k (limits.maxStates + 1) #[start] #[]) :=
  explore_outcome (progress_first c limits k start) le_rfl

/-! ## Limits -/

theorem numberTargets_error {ms : List (Nat × NumberSet)} {x : Limits.Excess}
    (h : numberTargets limits found ms = .error x) : x.quantity = .states := by
  induction ms generalizing found with
  | nil => exact nomatch h
  | cons m ms ih =>
    unfold numberTargets at h
    dsimp only at h
    split at h
    · rw [pure_bind] at h
      rcases of_bind_eq_error h with h | ⟨_, -, h⟩
      · exact ih h
      · exact nomatch h
    · rcases of_bind_eq_error h with h | ⟨⟨⟩, -, h⟩
      · unfold Limits.check at h
        split at h
        · obtain rfl := Except.error.inj h
          rfl
        · exact nomatch h
      · rw [pure_bind] at h
        rcases of_bind_eq_error h with h | ⟨_, -, h⟩
        · exact ih h
        · exact nomatch h

/-- The only limit of the construction is the one on states. -/
theorem explore_limit {fuel : Nat} {x : Limits.Excess}
    (h : explore c limits k fuel found done = .error (.limit x)) : x.quantity = .states := by
  induction fuel generalizing found done with
  | zero => exact nomatch h
  | succ fuel ih =>
    unfold explore at h
    split at h
    · exact nomatch h
    · split at h
      · exact nomatch h
      · split at h
        · rename_i hn
          obtain rfl := Fault.Cause.limit.inj (Except.error.inj h)
          exact numberTargets_error hn
        · exact ih h

/-! ## Few sets -/

/-- The sets found are different ones of a list. -/
structure Among (sets : List NumberSet) (found : Array NumberSet) : Prop where
  nodup : found.toList.Nodup
  subset : found.toList ⊆ sets
  pos : 0 < found.size

variable {sets : List NumberSet}

theorem among_first (h : start ∈ sets) : Among sets #[start] where
  nodup := List.nodup_singleton start
  subset := by simpa using h
  pos := Nat.one_pos

theorem Among.size_le (h : Among sets found) : found.size ≤ sets.length :=
  h.nodup.length_le_of_subset h.subset

theorem Among.push (h : Among sets found) (hset : set ∈ sets) (hnew : set ∉ found) :
    Among sets (found.push set) where
  nodup := by
    rw [Array.toList_push]
    exact List.nodup_append'.mpr ⟨h.nodup, List.nodup_singleton set, by simpa using hnew⟩
  subset := by
    rw [Array.toList_push]
    exact List.append_subset.mpr ⟨h.subset, by simpa using hset⟩
  pos := by simp

/-- Targets in a list that is within the limit can be numbered. -/
theorem numberTargets_ok (hle : sets.length ≤ max 1 limits.maxStates)
    {ms : List (Nat × NumberSet)} (hms : ∀ x ∈ ms, x.2 ∈ sets) (h : Among sets found) :
    ∃ ts found', numberTargets limits found ms = .ok (ts, found') ∧ Among sets found' := by
  induction ms generalizing found with
  | nil => exact ⟨[], found, rfl, h⟩
  | cons x ms ih =>
    obtain ⟨s, target⟩ := x
    obtain ⟨htarget, hms⟩ := List.forall_mem_cons.mp hms
    unfold numberTargets
    dsimp only
    split
    · rename_i j _
      obtain ⟨ts, found', hts, h'⟩ := ih hms h
      exact ⟨(s, j) :: ts, found', by rw [pure_bind, hts]; rfl, h'⟩
    · rename_i hnone
      have hpush := h.push htarget (Array.idxOf?_eq_none_iff.mp hnone)
      -- Two different sets are in the list, so its length is not the bound 1.
      have hcheck : limits.check .states (found.size + 1) = .ok () := by
        have hsize := hpush.size_le
        have hpos := h.pos
        rw [Array.size_push] at hsize
        rw [check_eq_ok]
        exact show found.size + 1 ≤ limits.maxStates by omega
      obtain ⟨ts, found', hts, h'⟩ := ih hms hpush
      refine ⟨(s, found.size) :: ts, found', ?_, h'⟩
      rw [hcheck]
      change (numberTargets limits (found.push target) ms >>= _) = _
      rw [hts]
      rfl

/-- **The construction succeeds if moves stay in a list of sets without overlaps** that is within
the limit. -/
theorem explore_ok (hle : sets.length ≤ max 1 limits.maxStates)
    (hsets : ∀ set ∈ sets, overlapIn c k set = none ∧ ∀ x ∈ moves k set, x.2 ∈ sets) {fuel : Nat}
    (h : Among sets found) : ∃ states, explore c limits k fuel found done = .ok states := by
  induction fuel generalizing found done with
  | zero => exact ⟨done, rfl⟩
  | succ fuel ih =>
    unfold explore
    split
    · exact ⟨done, rfl⟩
    · rename_i set hset
      have hmem : set ∈ sets :=
        h.subset (Array.mem_toList_iff.mpr (Array.mem_of_getElem? hset))
      obtain ⟨ho, hmoves⟩ := hsets set hmem
      obtain ⟨ts, found', hts, h'⟩ := numberTargets_ok hle hmoves h
      rw [overlapIn] at ho
      simp only [ho, hts]
      exact ih h'

end Construction

end MarkupGrammar
