import MarkupGrammar.Proofs.Document.ContentRun
import Mathlib.Data.List.Nodup
import Mathlib.Data.List.Perm.Subperm

/-! # Which elements share a path

The path that a start tag is given writes out the *route* from the root to the element: for each
step the local part of a child, and its number among the children of its name. Two children whose
names differ by the namespace only are numbered apart from each other, so the first of each is
reached by the same step (`nodup_routeSteps_iff`); routes repeat exactly where some element has two
such children, or more children of one name than a counter has numbers (`Tree.nodup_routes_iff`). As
long as no local part holds a slash, different routes are written out differently
(`routeText_inj`). So the elements of a document have paths of their own exactly if no element has
children with one local part in two namespaces, or children of one name beyond the counter.

Only elements whose start tags come before the first one that leads too deep are given a path: these
are *begun* within the limit on the depth. -/

namespace MarkupGrammar

/-! ## Elements within a limit on the depth -/

namespace Forest

variable {α : Type}

/-- What is begun of some content where `bound` elements may be nested: all up to the first element
that is too deep. -/
def begun : Nat → Forest α → Forest α
  | _, nil => nil
  | bound, piece s rest => piece s (rest.begun bound)
  | 0, element _ _ _ => nil
  | bound + 1, element l inner rest =>
    element l (inner.begun bound) (if inner.height ≤ bound then rest.begun (bound + 1) else nil)

theorem begun_eq_self {f : Forest α} {bound : Nat} (h : f.height ≤ bound) : f.begun bound = f := by
  induction f generalizing bound with
  | nil => cases bound <;> rfl
  | piece s rest ih => cases bound <;> rw [begun, ih h]
  | element l inner rest ihi ihr =>
    rw [height] at h
    obtain ⟨bound, rfl⟩ := Nat.exists_eq_add_one_of_ne_zero (n := bound) (by omega)
    have hinner : inner.height ≤ bound := by omega
    rw [begun, ihi hinner, if_pos hinner, ihr (by omega)]

end Forest

/-- The elements of a document that are begun where `bound` elements may be nested, each with what
is begun of it. -/
def Tree.begun {α : Type} : Nat → Tree α → List (Tree α)
  | 0, _ => []
  | bound + 1, t => Tree.trees ⟨t.label, t.inner.begun bound⟩

theorem Tree.begun_eq_trees {α : Type} {t : Tree α} {bound : Nat} (h : t.height ≤ bound) :
    t.begun bound = t.trees := by
  rw [height] at h
  obtain ⟨bound, rfl⟩ := Nat.exists_eq_add_one_of_ne_zero (n := bound) (by omega)
  rw [begun, Forest.begun_eq_self (by omega)]

/-! ## Routes -/

/-- The step to a child that comes after children with the names `before`: its local part, and its
number among the children of its name. -/
def routeStep (before : List Name) (name : Name) : String × Nat :=
  (name.localPart, Counter.next (before.count name))

/-- The steps to children with the given names that come after children with the names `before`. -/
def routeSteps (before : List Name) : List Name → List (String × Nat)
  | [] => []
  | n :: names => routeStep before n :: routeSteps (before ++ [n]) names

theorem routeStep_first {before : List Name} {name : Name} (h : name ∉ before) :
    routeStep before name = (name.localPart, 1) := by
  rw [routeStep, List.count_eq_zero_of_not_mem h, Counter.next_zero]

section Steps
variable {before names : List Name}

theorem map_fst_routeSteps : (routeSteps before names).map Prod.fst = names.map Name.localPart := by
  induction names generalizing before with
  | nil => rfl
  | cons m names ih => rw [routeSteps, List.map_cons, List.map_cons, ih, routeStep]

/-- The step to a child is numbered by how many of its name come before it. -/
theorem exists_of_mem_routeSteps {s : String × Nat} (h : s ∈ routeSteps before names) :
    ∃ n ∈ names, s.1 = n.localPart ∧ ∃ k, before.count n ≤ k ∧
      k < before.count n + names.count n ∧ s.2 = Counter.next k := by
  induction names generalizing before with
  | nil => exact nomatch h
  | cons m names ih =>
    rcases List.mem_cons.1 h with rfl | h
    · refine ⟨m, .head _, rfl, before.count m, Nat.le_refl _, ?_, rfl⟩
      rw [List.count_cons_self]
      omega
    · obtain ⟨n, hn, hlocal, k, hle, hlt, hnumber⟩ := ih h
      have hcons : (before ++ [m]).count n + names.count n =
          before.count n + (m :: names).count n := by
        rw [List.count_append, List.count_singleton, List.count_cons]
        omega
      rw [hcons] at hlt
      rw [List.count_append] at hle
      exact ⟨n, .tail _ hn, hlocal, k, by omega, hlt, hnumber⟩

/-- The first child of a name. -/
theorem first_mem_routeSteps {n : Name} (hn : n ∈ names) (hnew : n ∉ before) :
    (n.localPart, 1) ∈ routeSteps before names := by
  induction names generalizing before with
  | nil => exact nomatch hn
  | cons m names ih =>
    rw [routeSteps, List.mem_cons]
    by_cases hm : n = m
    · rw [← hm, routeStep_first hnew]
      exact .inl rfl
    · refine .inr (ih ((List.mem_cons.1 hn).resolve_left hm) fun hmem => ?_)
      rcases List.mem_append.1 hmem with hmem | hmem
      · exact hnew hmem
      · exact hm (List.mem_singleton.1 hmem)

theorem eq_of_nodup_routeSteps (h : (routeSteps before names).Nodup) {n n' : Name} (hn : n ∈ names)
    (hn' : n' ∈ names) (hnew : n ∉ before) (hnew' : n' ∉ before)
    (hlocal : n.localPart = n'.localPart) : n = n' := by
  induction names generalizing before n n' with
  | nil => exact nomatch hn
  | cons m names ih =>
    obtain ⟨hm, h⟩ := List.nodup_cons.1 h
    -- the first child is alone in its step with those of its name
    have hfirst {k : Name} (hk : k ∈ m :: names) (hmnew : m ∉ before) (hknew : k ∉ before)
        (hkm : m.localPart = k.localPart) : k = m := by
      by_contra hne
      have hmem : k ∈ names := (List.mem_cons.1 hk).resolve_left hne
      have hstep : (k.localPart, 1) ∈ routeSteps (before ++ [m]) names :=
        first_mem_routeSteps hmem (by simp [hknew, hne])
      rw [routeStep_first hmnew, hkm] at hm
      exact hm hstep
    by_cases hnm : n = m
    · subst hnm
      exact (hfirst hn' hnew hnew' hlocal).symm
    · by_cases hnm' : n' = m
      · subst hnm'
        exact hfirst hn hnew' hnew hlocal.symm
      · exact ih h ((List.mem_cons.1 hn).resolve_left hnm)
          ((List.mem_cons.1 hn').resolve_left hnm') (by simp [hnew, hnm]) (by simp [hnew', hnm'])
          hlocal

/-- Among different steps are no more to children of one name than there are numbers. -/
theorem count_le_of_nodup_routeSteps (h : (routeSteps before names).Nodup) (n : Name) :
    names.count n ≤ Counter.bound := by
  let steps := (routeSteps before names).filter (·.1 == n.localPart)
  have hcount : names.count n ≤ steps.length := by
    calc names.count n
        ≤ (names.map Name.localPart).count n.localPart := List.count_le_count_map
      _ = ((routeSteps before names).map Prod.fst).count n.localPart := by rw [map_fst_routeSteps]
      _ = steps.length := by
        rw [List.count, List.countP_map, List.countP_eq_length_filter]
        rfl
  have hnumbers : (steps.map Prod.snd).Nodup := by
    refine (h.filter _).map_on fun s hs s' hs' heq => Prod.ext ?_ heq
    rw [beq_iff_eq.1 (List.mem_filter.1 hs).2, beq_iff_eq.1 (List.mem_filter.1 hs').2]
  have hrange : steps.map Prod.snd ⊆ List.range Counter.bound := by
    intro k hk
    obtain ⟨s, hs, rfl⟩ := List.mem_map.1 hk
    obtain ⟨-, -, -, k, -, -, hnumber⟩ := exists_of_mem_routeSteps (List.mem_filter.1 hs).1
    rw [hnumber, List.mem_range]
    exact Counter.next_lt k
  have hlength := (hnumbers.subperm hrange).length_le
  rw [List.length_map, List.length_range] at hlength
  exact hcount.trans hlength

theorem nodup_routeSteps (h : ∀ n ∈ names, ∀ n' ∈ names, n.localPart = n'.localPart → n = n')
    (hfits : ∀ n ∈ names, names.count n ≤ Counter.bound) : (routeSteps before names).Nodup := by
  induction names generalizing before with
  | nil => exact List.nodup_nil
  | cons m names ih =>
    have htail (n : Name) : names.count n ≤ (m :: names).count n :=
      (List.sublist_cons_self m names).count_le n
    refine List.nodup_cons.2 ⟨fun hmem => ?_,
      ih (fun n hn n' hn' => h n (.tail _ hn) n' (.tail _ hn'))
        fun n hn => (htail n).trans (hfits n (.tail _ hn))⟩
    obtain ⟨n, hn, hlocal, k, hle, hlt, hnumber⟩ := exists_of_mem_routeSteps hmem
    obtain rfl := h m (.head _) n (.tail _ hn) hlocal
    have hbound := hfits m (.head _)
    rw [List.count_cons_self] at hbound
    rw [List.count_append, List.count_singleton_self] at hle hlt
    -- the number of `m` does not come again before the counter has gone round
    exact Counter.next_ne (m := before.count m) (by omega) (by omega) hnumber

/-- **Steps to siblings repeat exactly if two names differ by the namespace only**, or if more
siblings have one name than there are numbers. -/
theorem nodup_routeSteps_iff : (routeSteps [] names).Nodup ↔
    (∀ n ∈ names, ∀ n' ∈ names, n.localPart = n'.localPart → n = n') ∧
      ∀ n ∈ names, names.count n ≤ Counter.bound :=
  ⟨fun h => ⟨fun _ hn _ hn' => eq_of_nodup_routeSteps h hn hn' List.not_mem_nil List.not_mem_nil,
      fun n _ => count_le_of_nodup_routeSteps h n⟩,
    fun ⟨hapart, hfits⟩ => nodup_routeSteps hapart hfits⟩

end Steps

namespace Forest

/-- The names of the outermost elements. -/
def names (f : Forest ContentTag) : List Name := f.labels.map (·.name)

/-- The routes to the elements of some content that comes after children with the names `before`. -/
def routes (before : List Name) : Forest ContentTag → List (List (String × Nat))
  | nil => []
  | piece _ rest => rest.routes before
  | element l inner rest =>
    let s := routeStep before l.name
    [s] :: ((inner.routes []).map (s :: ·) ++ rest.routes (before ++ [l.name]))

variable {f : Forest ContentTag} {before : List Name}

theorem length_routes : (f.routes before).length = f.trees.length := by
  induction f generalizing before with
  | nil => rfl
  | piece s rest ih => exact ih
  | element l inner rest ihi ihr =>
    rw [routes, trees, List.length_cons, List.length_cons, List.length_append, List.length_append,
      List.length_map, ihi, ihr]

theorem exists_of_mem_routes {r : List (String × Nat)} (h : r ∈ f.routes before) :
    ∃ s ∈ routeSteps before f.names, ∃ r', r = s :: r' := by
  induction f generalizing before with
  | nil => exact nomatch h
  | piece s rest ih => exact ih h
  | element l inner rest ihi ihr =>
    rw [routes, List.mem_cons, List.mem_append] at h
    rcases h with rfl | h | h
    · exact ⟨_, .head _, [], rfl⟩
    · obtain ⟨r', -, rfl⟩ := List.mem_map.1 h
      exact ⟨_, .head _, r', rfl⟩
    · obtain ⟨s, hs, hr⟩ := ihr h
      exact ⟨s, .tail _ hs, hr⟩

/-- The steps of a route are named after elements. -/
theorem exists_of_mem_route {r : List (String × Nat)} (h : r ∈ f.routes before) {s : String × Nat}
    (hs : s ∈ r) : ∃ t ∈ f.trees, s.1 = t.label.name.localPart := by
  induction f generalizing before r with
  | nil => exact nomatch h
  | piece _ rest ih => exact ih h hs
  | element l inner rest ihi ihr =>
    rw [routes, List.mem_cons, List.mem_append] at h
    rw [trees]
    rcases h with rfl | h | h
    · obtain rfl := List.mem_singleton.1 hs
      exact ⟨_, .head _, rfl⟩
    · obtain ⟨r', hr', rfl⟩ := List.mem_map.1 h
      rcases List.mem_cons.1 hs with rfl | hs
      · exact ⟨_, .head _, rfl⟩
      · obtain ⟨t, ht, hlocal⟩ := ihi hr' hs
        exact ⟨t, .tail _ (List.mem_append_left _ ht), hlocal⟩
    · obtain ⟨t, ht, hlocal⟩ := ihr h hs
      exact ⟨t, .tail _ (List.mem_append_right _ ht), hlocal⟩

theorem singleton_mem_routes {s : String × Nat} (h : s ∈ routeSteps before f.names) :
    [s] ∈ f.routes before := by
  induction f generalizing before with
  | nil => exact nomatch h
  | piece _ rest ih => exact ih h
  | element l inner rest ihi ihr =>
    rw [routes, List.mem_cons, List.mem_append]
    rcases List.mem_cons.1 h with rfl | h
    · exact .inl rfl
    · exact .inr (.inr (ihr h))

theorem nil_not_mem_routes : [] ∉ f.routes before := by
  intro h
  obtain ⟨s, -, r, hr⟩ := exists_of_mem_routes h
  exact nomatch hr

/-- **Routes repeat exactly where steps to siblings do.** -/
theorem nodup_routes_iff : (f.routes before).Nodup ↔
    (routeSteps before f.names).Nodup ∧ ∀ t ∈ f.trees, (routeSteps [] t.inner.names).Nodup := by
  induction f generalizing before with
  | nil => simp [routes, names, labels, routeSteps, trees]
  | piece s rest ih => exact ih
  | element l inner rest ihi ihr =>
    have hcons (s : String × Nat) : Function.Injective (s :: · : List (String × Nat) → _) :=
      fun _ _ h => (List.cons.inj h).2
    have hsteps : routeSteps before (element l inner rest).names =
        routeStep before l.name :: routeSteps (before ++ [l.name]) rest.names := rfl
    rw [routes, hsteps, trees]
    generalize routeStep before l.name = s
    simp only [List.nodup_cons, List.nodup_append, List.nodup_map_iff (hcons s), ihi, ihr,
      List.forall_mem_cons, List.mem_append, not_or, or_imp, forall_and]
    constructor
    · rintro ⟨⟨-, hs⟩, ⟨hinner, hin⟩, ⟨hrest, hout⟩, -⟩
      exact ⟨⟨fun hmem => hs (singleton_mem_routes hmem), hrest⟩, hinner, hin, hout⟩
    · rintro ⟨⟨hs, hrest⟩, hinner, hin, hout⟩
      have hnew {r : List (String × Nat)} : s :: r ∉ rest.routes (before ++ [l.name]) := by
        intro hmem
        obtain ⟨s', hs', r', heq⟩ := exists_of_mem_routes hmem
        obtain ⟨rfl, -⟩ := List.cons.inj heq
        exact hs hs'
      refine ⟨⟨fun hmem => ?_, hnew⟩, ⟨hinner, hin⟩, ⟨hrest, hout⟩, ?_⟩
      · obtain ⟨r, hr, heq⟩ := List.mem_map.1 hmem
        obtain rfl := (List.cons.inj heq).2
        exact nil_not_mem_routes hr
      · intro r hr r' hr' heq
        obtain ⟨r₀, -, rfl⟩ := List.mem_map.1 hr
        exact hnew (heq ▸ hr')

end Forest

namespace Tree

variable {t : Tree ContentTag}

/-- The routes from an element to itself and to the elements in it. -/
def routes (t : Tree ContentTag) : List (List (String × Nat)) := [] :: t.inner.routes []

/-- No two children have names that differ by the namespace only. -/
def NamesApart (t : Tree ContentTag) : Prop :=
  ∀ n ∈ t.inner.names, ∀ n' ∈ t.inner.names, n.localPart = n'.localPart → n = n'

instance (t : Tree ContentTag) : Decidable t.NamesApart := by
  unfold NamesApart
  infer_instance

/-- Of no name are there more children than a counter has numbers. -/
def NumbersFit (t : Tree ContentTag) : Prop :=
  ∀ n ∈ t.inner.names, t.inner.names.count n ≤ Counter.bound

instance (t : Tree ContentTag) : Decidable t.NumbersFit := by
  unfold NumbersFit
  infer_instance

theorem nodup_routes_iff : t.routes.Nodup ↔ ∀ s ∈ t.trees, s.NamesApart ∧ s.NumbersFit := by
  rw [routes, List.nodup_cons, Forest.nodup_routes_iff, nodup_routeSteps_iff, trees,
    List.forall_mem_cons]
  simp only [nodup_routeSteps_iff]
  exact and_iff_right Forest.nil_not_mem_routes

end Tree

/-! ## Routes written out -/

/-- A step written out. -/
def stepText (s : String × Nat) : String := s!"/{s.1}[{s.2}]"

/-- A route written out. -/
def routeText (r : List (String × Nat)) : String := r.foldr (fun s text => stepText s ++ text) ""

/-- The characters of a step behind its slash. -/
def stepChars (s : String × Nat) : List Char :=
  s.1.toList ++ '[' :: (Nat.toDigits 10 s.2 ++ [']'])

theorem toList_stepText (s : String × Nat) : (stepText s).toList = '/' :: stepChars s := by
  unfold stepText stepChars
  simp only [String.toList_append, Nat.toString_eq_repr, Nat.toList_repr, List.append_assoc]
  rfl

theorem append_routeText (cs : List Char) (r : List (String × Nat)) :
    cs ++ (routeText r).toList = ['/'].intercalate (cs :: r.map stepChars) := by
  induction r generalizing cs with
  | nil => simp [routeText]
  | cons s r ih =>
    have hcons : routeText (s :: r) = stepText s ++ routeText r := rfl
    rw [hcons, String.toList_append, toList_stepText, List.map_cons, List.intercalate_cons_cons,
      ← ih]
    simp

/-- What comes before the last `c` is determined, where what follows it holds none. -/
theorem append_cons_inj {c : Char} {xs xs' ys ys' : List Char} (hys : c ∉ ys) (hys' : c ∉ ys')
    (h : xs ++ c :: ys = xs' ++ c :: ys') : xs = xs' ∧ ys = ys' := by
  rcases List.append_eq_append_iff.1 h with ⟨zs, rfl, hzs⟩ | ⟨zs, rfl, hzs⟩
  · cases zs with
    | nil => exact ⟨(List.append_nil _).symm, (List.cons.inj hzs).2⟩
    | cons z zs => exact absurd ((List.cons.inj hzs).2 ▸ by simp) hys
  · cases zs with
    | nil => exact ⟨List.append_nil _, (List.cons.inj hzs).2.symm⟩
    | cons z zs => exact absurd ((List.cons.inj hzs).2 ▸ by simp) hys'

theorem not_mem_toDigits {c : Char} (hc : c.isDigit = false) (n : Nat) : c ∉ Nat.toDigits 10 n := by
  intro hmem
  have hdigit := Nat.isDigit_of_mem_toDigits (by decide) (by decide) hmem
  rw [hc] at hdigit
  exact nomatch hdigit

theorem stepChars_inj {s s' : String × Nat} (h : stepChars s = stepChars s') : s = s' := by
  have hdigits (n : Nat) : '[' ∉ Nat.toDigits 10 n ++ [']'] := by
    simp [not_mem_toDigits (c := '[') rfl n]
  obtain ⟨hlocal, hnumber⟩ := append_cons_inj (hdigits s.2) (hdigits s'.2) h
  have hread (n : Nat) : Nat.ofDigitChars 10 (Nat.toDigits 10 n) 0 = n :=
    Nat.ofDigitChars_toDigits (by decide) (by decide)
  refine Prod.ext (String.toList_inj.1 hlocal) ?_
  rw [← hread s.2, List.append_cancel_right hnumber, hread]

/-- **Different routes are written out differently**, if no local part holds a slash. -/
theorem routeText_inj {r r' : List (String × Nat)} (hr : ∀ s ∈ r, '/' ∉ s.1.toList)
    (hr' : ∀ s ∈ r', '/' ∉ s.1.toList) (h : routeText r = routeText r') : r = r' := by
  have hsplit {r : List (String × Nat)} (hr : ∀ s ∈ r, '/' ∉ s.1.toList) :
      (routeText r).toList.splitOn '/' = [] :: r.map stepChars := by
    rw [← List.nil_append (routeText r).toList, append_routeText]
    refine List.splitOn_intercalate '/' (fun cs hcs => ?_) (List.cons_ne_nil _ _)
    rcases List.mem_cons.1 hcs with rfl | hcs
    · exact List.not_mem_nil
    · obtain ⟨s, hs, rfl⟩ := List.mem_map.1 hcs
      simp [stepChars, hr s hs, not_mem_toDigits (c := '/') rfl s.2]
  have hmap := List.cons.inj ((hsplit hr).symm.trans (h ▸ hsplit hr'))
  exact List.map_injective_iff.2 (fun _ _ => stepChars_inj) hmap.2

/-- The paths of the elements of some content, which comes after children with the names `before` of
an element with the path `path`. -/
def Forest.paths (path : String) (before : List Name) (f : Forest ContentTag) : List String :=
  (f.routes before).map (path ++ routeText ·)

theorem Forest.paths_nil (path : String) (before : List Name) : nil.paths path before = [] := rfl

theorem Forest.paths_element (path : String) (before : List Name) (l : ContentTag)
    (inner rest : Forest ContentTag) : (element l inner rest).paths path before =
      (path ++ stepText (routeStep before l.name)) ::
        (inner.paths (path ++ stepText (routeStep before l.name)) [] ++
          rest.paths path (before ++ [l.name])) := by
  have hcons (r : List (String × Nat)) : path ++ routeText (routeStep before l.name :: r) =
      path ++ stepText (routeStep before l.name) ++ routeText r := by
    rw [String.append_assoc]
    rfl
  unfold paths
  rw [routes, List.map_cons, List.map_append, List.map_map, hcons, routeText, List.foldr_nil,
    String.append_empty]
  congr 2
  exact List.map_congr_left fun r _ => hcons r

/-! ## The paths that start tags are given -/

variable {g : Grammar} {limits : Limits} {checksRoot : Bool} {e : Placed} {names : List Name}
  {texts : List String} {outer : List OpenElement} {w : ContentWalk}

theorem Placed.childPath_eq (e : Placed) (before : List Name) (name : Name) :
    e.childPath before name = e.path ++ stepText (routeStep before name) := by
  unfold childPath stepText routeStep
  simp only [String.append_assoc]
  rfl

namespace ContentWalk

/-- The path that an event is given: that of the element, for a start tag that succeeds. -/
def givenPath? (g : Grammar) (limits : Limits) (checksRoot : Bool) (w : ContentWalk) :
    Forest.Event ContentTag → Option String
  | .start l => ((w.start g limits checksRoot l.name).toOption).map (·.path)
  | .piece _ | .stop _ => none

/-- Follows events up to the first that fails; gives the paths of the elements. -/
def givenPaths (g : Grammar) (limits : Limits) (checksRoot : Bool) (w : ContentWalk) :
    List (Forest.Event ContentTag) → List String
  | [] => []
  | event :: events =>
    match w.step g limits checksRoot event with
    | .ok (_, w') =>
      (w.givenPath? g limits checksRoot event).toList ++ w'.givenPaths g limits checksRoot events
    | .error _ => []

theorem path?_of_start {name : Name} {s : Start} (h : w.start g limits checksRoot name = .ok s) :
    s.walk.path? = some s.path := by
  obtain ⟨e, rest, hwalk, hpath, -⟩ := opened_of_start h
  rw [hwalk, ← hpath]
  rfl

/-- A start tag is given the path of the element that is open after it. -/
theorem givenPath?_start {l : ContentTag} {x : List Violation × ContentWalk}
    (h : w.step g limits checksRoot (.start l) = .ok x) :
    w.givenPath? g limits checksRoot (.start l) = x.2.path? := by
  obtain ⟨s, hs, rfl⟩ := of_map_eq_ok h
  rw [givenPath?, hs]
  exact (path?_of_start hs).symm

theorem givenPaths_cons {event : Forest.Event ContentTag} {events : List (Forest.Event ContentTag)}
    {x : List Violation × ContentWalk} (h : w.step g limits checksRoot event = .ok x) :
    w.givenPaths g limits checksRoot (event :: events) =
      (w.givenPath? g limits checksRoot event).toList ++
        x.2.givenPaths g limits checksRoot events := by
  rw [givenPaths, h]

theorem givenPaths_of_error {event : Forest.Event ContentTag}
    {events : List (Forest.Event ContentTag)} {f : Failure}
    (h : w.step g limits checksRoot event = .error f) :
    w.givenPaths g limits checksRoot (event :: events) = [] := by
  rw [givenPaths, h]

/-- **The elements of some content are given the path of the element around it, continued by their
routes.** What comes behind the content is reached if it does not nest too deeply. -/
theorem givenPaths_forest (hg : g.Closed) (h : e.Sound g) (f : Forest ContentTag)
    (events : List (Forest.Event ContentTag)) {bound : Nat}
    (hbound : outer.length + 1 + bound = limits.maxDepth) :
    givenPaths g limits checksRoot ⟨e.opened g names texts :: outer⟩ (f.events ++ events) =
      (f.begun bound).paths e.path names ++
        if f.height ≤ bound then givenPaths g limits checksRoot
          ⟨e.opened g (names ++ f.names) (texts ++ f.pieces) :: outer⟩ events
        else [] := by
  induction f generalizing e names texts outer bound events with
  | nil =>
    rw [Forest.names, Forest.labels, Forest.pieces, List.map_nil, List.append_nil, List.append_nil]
    cases bound <;> rfl
  | piece s rest ih =>
    rw [Forest.events, List.cons_append, givenPaths_cons (step_piece h s), ih h events hbound,
      Forest.height, List.append_assoc]
    cases bound <;> rfl
  | element l inner rest ihi ihr =>
    cases bound with
    | zero =>
      have hfails : step g limits checksRoot ⟨e.opened g names texts :: outer⟩ (.start l) =
          .error (.limit ⟨.depth, limits.maxDepth + 1, limits.maxDepth⟩) := step_of_le hbound
      have hdeep : ¬ max (inner.height + 1) rest.height ≤ 0 := by omega
      rw [Forest.events, List.cons_append, givenPaths_of_error hfails, Forest.height,
        if_neg hdeep]
      rfl
    | succ bound =>
      have hchild := Placed.sound_child hg e names l.name
      have hstart : step g limits checksRoot ⟨e.opened g names texts :: outer⟩ (.start l) =
          .ok ((e.child g names l.name).2, ⟨(e.child g names l.name).1.opened g [] [] ::
            e.opened g (names ++ [l.name]) texts :: outer⟩) := step_start hg h l (by omega)
      have hpath : (e.child g names l.name).1.path =
          e.path ++ stepText (routeStep names l.name) := by
        rw [Placed.path_child, Placed.childPath_eq]
      have hgiven : givenPath? g limits checksRoot ⟨e.opened g names texts :: outer⟩ (.start l) =
          some (e.child g names l.name).1.path := givenPath?_start hstart
      have hinside : (e.opened g (names ++ [l.name]) texts :: outer).length + 1 + bound =
          limits.maxDepth := by
        rw [List.length_cons]
        omega
      rw [Forest.events, List.cons_append, List.append_assoc, List.cons_append,
        givenPaths_cons hstart, hgiven, ihi hchild _ hinside, Forest.begun, Forest.height,
        Forest.paths_element, ← hpath]
      by_cases hfits : inner.height ≤ bound
      · have hstops : givenPaths g limits checksRoot
              ⟨(e.child g names l.name).1.opened g ([] ++ inner.names) ([] ++ inner.pieces) ::
                e.opened g (names ++ [l.name]) texts :: outer⟩
              (.stop l :: (rest.events ++ events)) =
            givenPaths g limits checksRoot ⟨e.opened g (names ++ [l.name]) texts :: outer⟩
              (rest.events ++ events) :=
          givenPaths_cons (step_stop hchild l (Placed.name_child e names l.name))
        have hheight : max (inner.height + 1) rest.height ≤ bound + 1 ↔
            rest.height ≤ bound + 1 := by omega
        rw [if_pos hfits, if_pos hfits, hstops, ihr h events hbound]
        simp only [hheight]
        rw [Option.toList_some, List.singleton_append, List.cons_append, List.append_assoc,
          List.append_assoc]
        rfl
      · have hdeep : ¬ max (inner.height + 1) rest.height ≤ bound + 1 := by omega
        rw [if_neg hfits, if_neg hfits, if_neg hdeep, Forest.paths_nil, List.append_nil,
          List.append_nil]
        rfl

end ContentWalk

/-! ## Documents -/

namespace Tree

variable {t : Tree ContentTag}

/-- The paths of the elements of a document. -/
def paths (t : Tree ContentTag) : List String :=
  t.routes.map ("/" ++ t.label.name.localPart ++ routeText ·)

theorem length_paths : t.paths.length = t.trees.length := by
  rw [paths, List.length_map, routes, trees, List.length_cons, List.length_cons,
    Forest.length_routes]

theorem of_nodup_paths (h : t.paths.Nodup) : ∀ s ∈ t.trees, s.NamesApart ∧ s.NumbersFit :=
  nodup_routes_iff.1 h.of_map

theorem nodup_paths (hslash : ∀ s ∈ t.trees, '/' ∉ s.label.name.localPart.toList)
    (h : ∀ s ∈ t.trees, s.NamesApart ∧ s.NumbersFit) : t.paths.Nodup := by
  have hsteps : ∀ r ∈ t.routes, ∀ s ∈ r, '/' ∉ s.1.toList := by
    intro r hr s hs
    rcases List.mem_cons.1 hr with rfl | hr
    · exact nomatch hs
    · obtain ⟨t', ht', hlocal⟩ := Forest.exists_of_mem_route hr hs
      exact hlocal ▸ hslash t' (.tail _ ht')
  refine (nodup_routes_iff.2 h).map_on fun r hr r' hr' heq => ?_
  exact routeText_inj (hsteps r hr) (hsteps r' hr') (String.append_right_inj _ |>.1 heq)

/-- A local part with a slash can be taken for a longer route. -/
example : let t : Tree ContentTag := ⟨⟨.unqualified "part", {}⟩,
      .element ⟨.unqualified "a", {}⟩ (.element ⟨.unqualified "b", {}⟩ .nil .nil)
        (.element ⟨.unqualified "a[1]/b", {}⟩ .nil .nil)⟩
    (∀ s ∈ t.trees, s.NamesApart ∧ s.NumbersFit) ∧ ¬ t.paths.Nodup := by
  decide

end Tree

namespace ContentWalk

theorem givenPaths_stop (w : ContentWalk) (l : ContentTag) :
    w.givenPaths g limits checksRoot [.stop l] = [] := by
  rw [givenPaths]
  split <;> rfl

/-- **The elements of a document that are begun are given its paths.** -/
theorem givenPaths_tree (hg : g.Closed) (t : Tree ContentTag) {bound : Nat}
    (hbound : bound + 1 = limits.maxDepth) :
    givenPaths g limits checksRoot {} t.events =
      Tree.paths ⟨t.label, t.inner.begun bound⟩ := by
  obtain ⟨l, inner⟩ := t
  have hroot := Placed.sound_root (g := g) checksRoot l.name
  have hpos : 1 ≤ limits.maxDepth := by omega
  have hstart := step_root (g := g) checksRoot l hpos
  have hgiven : givenPath? g limits checksRoot {} (.start l) =
      some ("/" ++ l.name.localPart) := givenPath?_start hstart
  have hinside : ([] : List OpenElement).length + 1 + bound = limits.maxDepth := by
    rw [List.length_nil]
    omega
  rw [Tree.events, givenPaths_cons hstart, hgiven, givenPaths_forest hg hroot inner _ hinside,
    givenPaths_stop, ite_self, List.append_nil, Tree.paths, Tree.routes, List.map_cons, routeText,
    List.foldr_nil, String.append_empty]
  rfl

/-- Either the root is too deep, or what is begun is a tree, whose elements are given its paths. -/
theorem givenPaths_begun (hg : g.Closed) (t : Tree ContentTag) :
    (givenPaths g limits checksRoot {} t.events = [] ∧ t.begun limits.maxDepth = []) ∨
      ∃ t' : Tree ContentTag, givenPaths g limits checksRoot {} t.events = t'.paths ∧
        t.begun limits.maxDepth = t'.trees := by
  cases hmax : limits.maxDepth with
  | zero => exact .inl ⟨givenPaths_of_error (step_of_le hmax.symm), rfl⟩
  | succ bound => exact .inr ⟨_, givenPaths_tree hg t hmax.symm, rfl⟩

/-- **Elements share a path exactly where two siblings have one local part in two namespaces**, or
where siblings of one name are more than a counter has numbers. For every grammar that compiles and
every document, each element that is begun within the limit on the depth (all of them, if the
document nests no deeper) is given a path. If no two are given the same one, then among the children
of no element are two names that differ by the namespace only, or too many of one name; and if there
are none and no local part holds a slash, then no two elements are given the same path. -/
theorem nodup_givenPaths_iff {draft : GrammarDraft} {own : Limits} (h : draft.compile own = .ok g)
    (limits : Limits) (checksRoot : Bool) (t : Tree ContentTag) :
    let begun := t.begun limits.maxDepth
    let paths := givenPaths g limits checksRoot {} t.events
    paths.length = begun.length ∧ (t.height ≤ limits.maxDepth → begun = t.trees) ∧
      (paths.Nodup → ∀ s ∈ begun, s.NamesApart ∧ s.NumbersFit) ∧
      ((∀ s ∈ begun, '/' ∉ s.label.name.localPart.toList) →
        (∀ s ∈ begun, s.NamesApart ∧ s.NumbersFit) → paths.Nodup) := by
  intro begun paths
  have hbegun : (paths = [] ∧ begun = []) ∨
      ∃ t' : Tree ContentTag, paths = t'.paths ∧ begun = t'.trees :=
    givenPaths_begun (GrammarDraft.closed_of_compile h) t
  have hall : t.height ≤ limits.maxDepth → begun = t.trees := Tree.begun_eq_trees
  rcases hbegun with ⟨hpaths, hbegun⟩ | ⟨t', hpaths, hbegun⟩
  · rw [hpaths, hbegun]
    exact ⟨rfl, hbegun ▸ hall, fun _ _ hs => (nomatch hs), fun _ _ => List.nodup_nil⟩
  · rw [hpaths, hbegun]
    exact ⟨Tree.length_paths, hbegun ▸ hall, Tree.of_nodup_paths, Tree.nodup_paths⟩

/-- A part with any content. -/
def openPart : GrammarDraft where
  description := .schema none
  elements := [{ name := .unqualified "part", content := .any }]

/-- A part with three elements, two of them of one name, and an element of another namespace with
the local part of the element around it. -/
def openedPart : Tree ContentTag :=
  ⟨⟨.unqualified "part", {}⟩,
    .element ⟨.unqualified "a", {}⟩ (.element ⟨.qualified "urn:x" "a", {}⟩ .nil .nil)
      (.element ⟨.qualified "urn:x" "b", {}⟩ .nil
        (.piece "text" (.element ⟨.unqualified "a", {}⟩ .nil .nil)))⟩

theorem nodup_givenPaths_openedPart : ∃ g, openPart.compile {} = .ok g ∧
    (givenPaths g {} true {} openedPart.events).length = 5 ∧
    (givenPaths g {} true {} openedPart.events).Nodup ∧
    (givenPaths g { maxDepth := 2 } true {} openedPart.events).length = 2 := by
  have hok : (openPart.compile {}).isOk := by decide +kernel
  obtain ⟨g, h⟩ := GrammarDraft.exists_compile_eq_ok hok
  obtain ⟨hlength, -, -, hnodup⟩ := nodup_givenPaths_iff h {} true openedPart
  obtain ⟨hdeep, -⟩ := nodup_givenPaths_iff h { maxDepth := 2 } true openedPart
  exact ⟨g, h, hlength, hnodup (by decide) (by decide), hdeep⟩

/-- Two children of a part whose names differ by the namespace only. -/
def alikePart : Tree ContentTag :=
  ⟨⟨.unqualified "part", {}⟩,
    .element ⟨.unqualified "a", {}⟩ .nil (.element ⟨.qualified "urn:x" "a", {}⟩ .nil .nil)⟩

/-- They are given one path. -/
theorem exists_path_shared : ∃ g, openPart.compile {} = .ok g ∧
    givenPaths g {} true {} alikePart.events = ["/part", "/part/a[1]", "/part/a[1]"] := by
  have hok : (openPart.compile {}).isOk := by decide +kernel
  obtain ⟨g, h⟩ := GrammarDraft.exists_compile_eq_ok hok
  refine ⟨g, h, ?_⟩
  have hbound : 999 + 1 = ({} : Limits).maxDepth := rfl
  rw [givenPaths_tree (GrammarDraft.closed_of_compile h) alikePart hbound]
  decide

end ContentWalk

end MarkupGrammar
