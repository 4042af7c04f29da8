import Mathlib.Data.Finmap
import MarkupGrammar.Pool

/-! # A pool is a finite map

What a pool is for is said without its keys and its list: a `GrammarMap` is a lock and a finite map
from descriptions to grammars, and it answers the same requests. A pool that is *sound*, with each
key once and each grammar under its own key, is viewed as such a map (`Pool.view`), since different
descriptions have different keys; every operation keeps soundness and does to the view what the
operation of the map does. So a pool that starts empty answers every list of requests as the
map does (`Pool.serve_view`), where the order in which several grammars are listed is left open.

From the map one reads off what happens to one grammar: requests that are about other descriptions
leave it in its place. -/

namespace MarkupGrammar

/-- Different descriptions have different keys. -/
theorem PoolKey.of_injective : Function.Injective PoolKey.of := by
  intro d d' h
  obtain ⟨hkind, hkey⟩ := PoolKey.mk.inj h
  cases d <;> cases d'
  · exact congrArg _ (Option.some.inj hkey)
  · cases hkind
  · cases hkind
  · exact congrArg _ hkey

@[simp] theorem PoolKey.of_inj {d d' : Description} : PoolKey.of d = .of d' ↔ d = d' :=
  PoolKey.of_injective.eq_iff

/-! ## The map -/

/-- What a pool is: a lock, and a finite map from descriptions to grammars. -/
structure GrammarMap (α : Type) where
  grammars : Finmap (fun _ : Description => α) := ∅
  isLocked : Bool := false

namespace GrammarMap

variable {α σ : Type} [Described α]

/-- The finite map of grammars under their descriptions; of those with one description the first
counts. -/
def ofList (gs : List α) : Finmap (fun _ : Description => α) :=
  (gs.map fun g => (⟨Described.description g, g⟩ : (_ : Description) × α)).toFinmap

/-- The map with a grammar under its description, unless it is locked. -/
def put (m : GrammarMap α) (g : α) : GrammarMap α :=
  if m.isLocked then m else { m with grammars := m.grammars.insert (Described.description g) g }

/-- The map with the grammars of a kind under those descriptions that had none, unless it is
locked. -/
def cache (m : GrammarMap α) (kind : Grammar.Kind) (gs : List α) : GrammarMap α :=
  if m.isLocked then m
  else { m with
    grammars := m.grammars ∪ ofList (gs.filter fun g => (Described.description g).kind == kind) }

/-- The grammar of a description, compiled only if there is none; only a grammar of this description
is given, and put into the map. -/
def resolve (m : GrammarMap α) (d : Description) (compile : σ → Except Failure α × σ)
    (outside : σ) : (Except Failure α × GrammarMap α) × σ :=
  match m.grammars.lookup d, compile outside with
  | some g, _ => ((.ok g, m), outside)
  | none, (.error e, outside) => ((.error e, m), outside)
  | none, (.ok g, outside) =>
    if Described.description g = d then ((.ok g, m.put g), outside)
    else ((.error (.defect (.otherGrammar (Described.description g).text d.text)), m), outside)

/-- Serves a request. -/
def respond (m : GrammarMap α) (outside : σ) :
    Pool.Request σ α → (Pool.Answer (Multiset α) α × GrammarMap α) × σ
  | .put g => ((.done, m.put g), outside)
  | .get d => ((.grammar (m.grammars.lookup d), m), outside)
  | .remove d =>
    ((.grammar (m.grammars.lookup d), { m with grammars := m.grammars.erase d }), outside)
  | .contains d => ((.truth (decide (d ∈ m.grammars)), m), outside)
  | .ofKind kind =>
    ((.grammars ((m.grammars.entries.filter (·.1.kind = kind)).map (·.2)), m), outside)
  | .cache kind gs => ((.done, m.cache kind gs), outside)
  | .resolve d compile =>
    let ((result, m), outside) := m.resolve d compile outside
    ((.resolved result, m), outside)
  | .size => ((.number m.grammars.keys.card, m), outside)
  | .isEmpty => ((.truth (decide (m.grammars.keys = ∅)), m), outside)
  | .isLocked => ((.truth m.isLocked, m), outside)
  | .clear => ((.done, { m with grammars := ∅ }), outside)
  | .lock => ((.done, { m with isLocked := true }), outside)
  | .unlock => ((.done, { m with isLocked := false }), outside)

/-- Serves requests in order; gives the answers, the map and what is outside of it. -/
def serve (m : GrammarMap α) (outside : σ) :
    List (Pool.Request σ α) → (List (Pool.Answer (Multiset α) α) × GrammarMap α) × σ
  | [] => (([], m), outside)
  | r :: rs =>
    let ((answer, m), outside) := m.respond outside r
    let ((answers, m), outside) := m.serve outside rs
    ((answer :: answers, m), outside)

theorem lookup_ofList (gs : List α) (d : Description) :
    (ofList gs).lookup d = gs.find? fun g => Described.description g == d := by
  unfold ofList
  rw [Finmap.dlookup_list_toFinmap]
  induction gs with
  | nil => rfl
  | cons g gs ih =>
    rw [List.map_cons, List.find?_cons]
    by_cases h : Described.description g = d
    · subst h
      rw [List.dlookup_cons_eq, beq_self_eq_true]
    · rw [List.dlookup_cons_ne _ _ (Ne.symm h), ih, beq_eq_false_iff_ne.2 h]

/-! ## One grammar of the map -/

end GrammarMap

/-- The request is neither to remove nor to replace what there is of a description. -/
def Pool.Request.Spares {α σ : Type} [Described α] (d : Description) : Pool.Request σ α → Prop
  | .put g => Described.description g ≠ d
  | .remove d' => d' ≠ d
  | .clear => False
  | _ => True

namespace GrammarMap

variable {α σ : Type} [Described α] {m : GrammarMap α} {d : Description} {g : α}

theorem lookup_put_self (hl : m.isLocked = false) :
    (m.put g).grammars.lookup (Described.description g) = some g := by
  unfold put
  rw [hl, if_neg Bool.false_ne_true, Finmap.lookup_insert]

theorem lookup_put_of_ne {g' : α} (hne : Described.description g' ≠ d)
    (hg : m.grammars.lookup d = some g) : (m.put g').grammars.lookup d = some g := by
  unfold put
  split
  · exact hg
  · rw [Finmap.lookup_insert_of_ne _ hne.symm, hg]

theorem lookup_cache {kind : Grammar.Kind} {gs : List α} (hg : m.grammars.lookup d = some g) :
    (m.cache kind gs).grammars.lookup d = some g := by
  unfold cache
  split
  · exact hg
  · rw [Finmap.lookup_union_left (Finmap.mem_of_lookup_eq_some hg), hg]

theorem lookup_resolve {d' : Description} {compile : σ → Except Failure α × σ} {outside : σ}
    (hg : m.grammars.lookup d = some g) :
    (m.resolve d' compile outside).1.2.grammars.lookup d = some g := by
  unfold resolve
  split
  · exact hg
  · exact hg
  · rename_i hnone _
    split
    · rename_i g' _ _ hd'
      refine lookup_put_of_ne (fun hne => ?_) hg
      rw [← hd', hne, hg] at hnone
      cases hnone
    · exact hg

/-- **A request that spares a description leaves its grammar in its place.** -/
theorem lookup_respond {r : Pool.Request σ α} (hr : r.Spares d) (outside : σ)
    (hg : m.grammars.lookup d = some g) :
    (m.respond outside r).1.2.grammars.lookup d = some g := by
  cases r with
  | put g' => exact lookup_put_of_ne hr hg
  | remove d' => exact (Finmap.lookup_erase_ne (Ne.symm hr)).trans hg
  | cache kind gs => exact lookup_cache hg
  | resolve d' compile => exact lookup_resolve hg
  | clear => exact hr.elim
  | _ => exact hg

theorem lookup_serve {rs : List (Pool.Request σ α)} (hrs : ∀ r ∈ rs, r.Spares d) (outside : σ)
    (hg : m.grammars.lookup d = some g) :
    (m.serve outside rs).1.2.grammars.lookup d = some g := by
  induction rs generalizing m outside with
  | nil => exact hg
  | cons r rs ih =>
    exact ih (fun r' h' => hrs r' (.tail _ h')) _ (lookup_respond (hrs r (.head _)) outside hg)

end GrammarMap

/-! ## Entries by their keys -/

namespace Pool

variable {α σ : Type}

theorem lookup_eq_some_iff_mem {l : List (PoolKey × α)} (h : (l.map (·.1)).Nodup) {k : PoolKey}
    {g : α} : l.lookup k = some g ↔ (k, g) ∈ l := by
  induction l with
  | nil => simp
  | cons e l ih =>
    obtain ⟨k', g'⟩ := e
    obtain ⟨hnew, hl⟩ := List.nodup_cons.1 h
    rw [List.lookup_cons, List.mem_cons]
    by_cases hk : k = k'
    · subst hk
      have hout : (k, g) ∉ l := fun hm => hnew (List.mem_map_of_mem (f := (·.1)) hm)
      simp [hout, eq_comm]
    · rw [beq_eq_false_iff_ne.2 hk]
      simp [hk, ih hl]

theorem lookup_eq_none_iff {l : List (PoolKey × α)} {k : PoolKey} :
    l.lookup k = none ↔ k ∉ l.map (·.1) := by
  rw [List.lookup_eq_none_iff]
  simp only [List.mem_map, not_exists, not_and, ne_eq, bne_iff_ne]
  exact ⟨fun h e he hk => h e he hk.symm, fun h e he hk => h e he hk.symm⟩

theorem lookup_erase (p : Pool α) (d : Description) (k : PoolKey) :
    (p.erase d).entries.lookup k = if k = .of d then none else p.entries.lookup k := by
  unfold erase
  dsimp only
  induction p.entries with
  | nil => simp
  | cons e l ih =>
    obtain ⟨k', g'⟩ := e
    by_cases hk : k' = .of d
    · rw [List.filter_cons_of_neg (by simp [hk]), ih, List.lookup_cons]
      split
      · rfl
      · rename_i hne
        rw [hk, beq_eq_false_iff_ne.2 hne]
    · rw [List.filter_cons_of_pos (by simp [hk]), List.lookup_cons, List.lookup_cons, ih]
      by_cases hkk : k = k'
      · subst hkk
        simp [hk]
      · rw [beq_eq_false_iff_ne.2 hkk]

theorem lookup_insertNew (p : Pool α) (k k' : PoolKey) (g : α) :
    (p.insertNew k g).entries.lookup k' =
      (p.entries.lookup k').or (if k' = k then some g else none) := by
  unfold insertNew
  by_cases hk : k' = k
  · subst hk
    rw [if_pos rfl]
    split
    · rename_i h
      obtain ⟨g', hg'⟩ := Option.isSome_iff_exists.1 h
      rw [hg', Option.some_or]
    · rename_i h
      rw [Option.not_isSome_iff_eq_none.1 h, Option.none_or, List.lookup_cons_self]
  · rw [if_neg hk, Option.or_none]
    split
    · rfl
    · rw [List.lookup_cons, beq_eq_false_iff_ne.2 hk]

@[simp] theorem isLocked_erase (p : Pool α) (d : Description) :
    (p.erase d).isLocked = p.isLocked := rfl

@[simp] theorem isLocked_insertNew (p : Pool α) (k : PoolKey) (g : α) :
    (p.insertNew k g).isLocked = p.isLocked := by
  unfold insertNew
  split <;> rfl

/-! ## Sound pools -/

variable [Described α]

@[simp] theorem of_eq_keyOf {d : Description} {g : α} :
    PoolKey.of d = keyOf g ↔ d = Described.description g := PoolKey.of_inj

@[simp] theorem isLocked_insertAll (p : Pool α) (gs : List α) :
    (gs.foldl (fun p g => p.insertNew (keyOf g) g) p).isLocked = p.isLocked := by
  induction gs generalizing p with
  | nil => rfl
  | cons g gs ih => rw [List.foldl_cons, ih, isLocked_insertNew]

theorem lookup_insertAll (p : Pool α) (gs : List α) (d : Description) :
    (gs.foldl (fun p g => p.insertNew (keyOf g) g) p).entries.lookup (.of d) =
      (p.entries.lookup (.of d)).or (gs.find? fun g => Described.description g == d) := by
  induction gs generalizing p with
  | nil => rw [List.foldl_nil, List.find?_nil, Option.or_none]
  | cons g gs ih =>
    rw [List.foldl_cons, ih, lookup_insertNew, Option.or_assoc, List.find?_cons]
    congr 1
    by_cases hd : Described.description g = d
    · rw [if_pos (of_eq_keyOf.2 hd.symm), Option.some_or, beq_iff_eq.2 hd]
    · rw [if_neg fun hk => hd (of_eq_keyOf.1 hk).symm, Option.none_or,
        beq_eq_false_iff_ne.2 hd]

/-- Each key is there once, and each grammar under its own key. -/
structure Sound (p : Pool α) : Prop where
  nodup : (p.entries.map (·.1)).Nodup
  own : ∀ e ∈ p.entries, e.1 = keyOf e.2

namespace Sound

variable {p : Pool α} {d : Description} {g : α}

theorem empty : ({} : Pool α).Sound := ⟨List.nodup_nil, fun _ h => nomatch h⟩

theorem clear (p : Pool α) : p.clear.Sound := ⟨List.nodup_nil, fun _ h => nomatch h⟩

theorem withLock (h : p.Sound) (isLocked : Bool) : Sound { p with isLocked } := ⟨h.nodup, h.own⟩

theorem erase (h : p.Sound) (d : Description) : (p.erase d).Sound where
  nodup := h.nodup.sublist (List.filter_sublist.map _)
  own e he := h.own e (List.mem_of_mem_filter he)

theorem insertNew (h : p.Sound) (g : α) : (p.insertNew (keyOf g) g).Sound := by
  unfold Pool.insertNew
  split
  · exact h
  · rename_i hnone
    have hnew := lookup_eq_none_iff.1 (Option.not_isSome_iff_eq_none.1 hnone)
    refine ⟨List.nodup_cons.2 ⟨hnew, h.nodup⟩, fun e he => ?_⟩
    rcases List.mem_cons.1 he with rfl | he
    · rfl
    · exact h.own e he

theorem insertAll (h : p.Sound) (gs : List α) :
    (gs.foldl (fun p g => p.insertNew (keyOf g) g) p).Sound := by
  induction gs generalizing p with
  | nil => exact h
  | cons g gs ih => exact ih (h.insertNew g)

theorem put (h : p.Sound) (g : α) : (p.put g).Sound := by
  unfold Pool.put
  split
  · exact h
  · exact (h.erase _).insertNew g

theorem cache (h : p.Sound) (kind : Grammar.Kind) (gs : List α) : (p.cache kind gs).Sound := by
  unfold Pool.cache
  split
  · exact h
  · exact h.insertAll _

/-- A grammar that is under the key of a description has it. -/
theorem description_of_lookup (h : p.Sound) (hg : p.entries.lookup (.of d) = some g) :
    Described.description g = d :=
  (PoolKey.of_injective (h.own _ ((lookup_eq_some_iff_mem h.nodup).1 hg))).symm

theorem get?_eq (h : p.Sound) (d : Description) : p.get? d = p.entries.lookup (.of d) := by
  unfold get?
  cases hg : p.entries.lookup (.of d) with
  | none => rfl
  | some g => simp [h.description_of_lookup hg]

theorem erase_eq_self (h : p.Sound) (hd : p.get? d = none) : p.erase d = p := by
  rw [h.get?_eq, lookup_eq_none_iff] at hd
  unfold Pool.erase
  rw [List.filter_eq_self.2]
  exact fun e he => bne_iff_ne.2 fun hk => hd (hk ▸ List.mem_map_of_mem (f := (·.1)) he)

theorem remove_eq (h : p.Sound) (d : Description) : p.remove d = (p.get? d, p.erase d) := by
  unfold remove
  cases hg : p.get? d with
  | some g => rfl
  | none => rw [h.erase_eq_self hg]

end Sound

/-! ## The view of a pool -/

/-- The grammars of a pool under their descriptions. -/
def described (p : Pool α) : List ((_ : Description) × α) :=
  p.entries.map fun e => ⟨Described.description e.2, e.2⟩

/-- A pool as a map. -/
def view (p : Pool α) : GrammarMap α where
  grammars := p.described.toFinmap
  isLocked := p.isLocked

section View
variable {p : Pool α} (h : p.Sound)
include h

theorem mem_described {d : Description} {g : α} :
    ⟨d, g⟩ ∈ p.described ↔ (PoolKey.of d, g) ∈ p.entries := by
  unfold described
  rw [List.mem_map]
  constructor
  · rintro ⟨e, he, heq⟩
    obtain ⟨rfl, hg⟩ := Sigma.mk.inj heq
    obtain rfl := eq_of_heq hg
    have : e.1 = keyOf e.2 := h.own e he
    rw [show PoolKey.of (Described.description e.2) = e.1 from this.symm]
    exact he
  · intro he
    refine ⟨_, he, ?_⟩
    rw [h.description_of_lookup ((lookup_eq_some_iff_mem h.nodup).2 he)]

theorem nodupKeys_described : p.described.NodupKeys := by
  have hkeys : p.described.keys.map PoolKey.of = p.entries.map (·.1) := by
    unfold described List.keys
    rw [List.map_map, List.map_map]
    exact List.map_congr_left fun e he => (h.own e he).symm
  exact List.Nodup.of_map PoolKey.of (hkeys ▸ h.nodup)

theorem lookup_view (d : Description) : p.view.grammars.lookup d = p.get? d := by
  rw [h.get?_eq]
  refine Option.ext fun g => ?_
  rw [lookup_eq_some_iff_mem h.nodup, ← mem_described h]
  unfold view
  rw [Finmap.dlookup_list_toFinmap]
  exact List.mem_dlookup_iff (nodupKeys_described h)

theorem entries_view : p.view.grammars.entries = (p.described : Multiset _) := by
  have hd := nodupKeys_described h
  unfold view List.toFinmap
  rw [AList.toFinmap_entries, AList.entries_toAList]
  refine Multiset.coe_eq_coe.2 ?_
  refine (List.perm_ext_iff_of_nodup (List.nodupKeys_dedupKeys _).nodup hd.nodup).2 ?_
  rintro ⟨d, g⟩
  rw [← List.mem_dlookup_iff hd, ← List.mem_dlookup_iff (List.nodupKeys_dedupKeys _),
    List.dlookup_dedupKeys]

theorem card_keys_view : p.view.grammars.keys.card = p.size := by
  have : p.view.grammars.keys.val = (p.described.keys : Multiset _) := by
    unfold Finmap.keys
    rw [← Multiset.coe_keys, ← entries_view h]
  rw [Finset.card, this, Multiset.coe_card]
  unfold List.keys described size
  rw [List.length_map, List.length_map]

theorem ofKind_view (kind : Grammar.Kind) :
    (p.view.grammars.entries.filter (·.1.kind = kind)).map (·.2) =
      (p.ofKind kind : Multiset α) := by
  rw [entries_view h, Multiset.filter_coe, Multiset.map_coe]
  congr 1
  unfold described ofKind
  rw [List.filter_map, List.map_map]
  refine congrArg _ (List.filter_congr fun e he => ?_)
  have : e.1.kind = (Described.description e.2).kind := congrArg PoolKey.kind (h.own e he)
  simp [this]
  rfl

/-- The view is known by what is looked up in the pool. -/
theorem view_eq {m : GrammarMap α} (hlock : p.isLocked = m.isLocked)
    (hget : ∀ d, p.entries.lookup (.of d) = m.grammars.lookup d) : p.view = m := by
  have : p.view.grammars = m.grammars :=
    Finmap.ext_lookup fun d => by rw [lookup_view h, h.get?_eq, hget]
  obtain ⟨grammars, isLocked⟩ := m
  exact congrArg₂ GrammarMap.mk this hlock

theorem view_erase (d : Description) :
    (p.erase d).view = { p.view with grammars := p.view.grammars.erase d } := by
  refine view_eq (h.erase d) rfl fun d' => ?_
  rw [lookup_erase]
  by_cases hd : d' = d
  · rw [if_pos (congrArg _ hd), hd, Finmap.lookup_erase]
  · rw [if_neg fun hk => hd (PoolKey.of_injective hk), Finmap.lookup_erase_ne hd, lookup_view h,
      h.get?_eq]

theorem view_put (g : α) : (p.put g).view = p.view.put g := by
  unfold put GrammarMap.put
  rw [show p.view.isLocked = p.isLocked from rfl]
  split
  · rfl
  · refine view_eq ((h.erase _).insertNew g) (isLocked_insertNew _ _ _) fun d => ?_
    rw [lookup_insertNew, lookup_erase]
    simp only [PoolKey.of_inj, of_eq_keyOf]
    by_cases hd : d = Described.description g
    · rw [if_pos hd, if_pos hd, Option.none_or, hd, Finmap.lookup_insert]
    · rw [if_neg hd, if_neg hd, Option.or_none, Finmap.lookup_insert_of_ne _ hd, lookup_view h,
        h.get?_eq]

theorem view_cache (kind : Grammar.Kind) (gs : List α) :
    (p.cache kind gs).view = p.view.cache kind gs := by
  unfold cache GrammarMap.cache
  rw [show p.view.isLocked = p.isLocked from rfl]
  split
  · rfl
  · refine view_eq (h.insertAll _) (isLocked_insertAll _ _) fun d => ?_
    rw [lookup_insertAll, ← GrammarMap.lookup_ofList, ← h.get?_eq, ← lookup_view h]
    dsimp only
    by_cases hd : d ∈ p.view.grammars
    · obtain ⟨g, hg⟩ := Finmap.mem_iff.1 hd
      rw [Finmap.lookup_union_left hd, hg, Option.some_or]
    · rw [Finmap.lookup_union_right hd, Finmap.lookup_eq_none.2 hd, Option.none_or]

theorem view_resolveFrom (d : Description) (compile : σ → Except Failure α × σ) (outside : σ) :
    p.view.resolve d compile outside =
      (((p.resolveFrom d compile outside).1.1, (p.resolveFrom d compile outside).1.2.view),
        (p.resolveFrom d compile outside).2) := by
  unfold resolveFrom GrammarMap.resolve
  rw [lookup_view h]
  cases hg : p.get? d with
  | some g => rfl
  | none =>
    obtain ⟨result, outside⟩ := compile outside
    cases result with
    | error e => rfl
    | ok g =>
      by_cases hd : Described.description g = d
      · subst hd
        have hput := view_put h g
        unfold put at hput
        dsimp only
        rw [if_neg (not_not_intro rfl), if_pos rfl]
        split
        · rename_i hl
          rw [← hput, if_pos hl]
        · rename_i hl
          -- nothing is under the key, so what is found there is what was compiled
          have hnone := h.get?_eq _ ▸ hg
          rw [← hput, if_neg hl, h.erase_eq_self hg]
          dsimp only
          rw [lookup_insertNew, hnone, Option.none_or, if_pos rfl, Option.getD_some]
          rfl
      · dsimp only
        rw [if_pos hd, if_neg hd]

end View

theorem Sound.resolveFrom {p : Pool α} (h : p.Sound) (d : Description)
    (compile : σ → Except Failure α × σ) (outside : σ) :
    (p.resolveFrom d compile outside).1.2.Sound := by
  unfold Pool.resolveFrom
  split
  · exact h
  · dsimp only
    split
    · exact h
    · split
      · exact h
      · rename_i hd
        rw [← not_not.1 hd]
        split
        · exact h
        · exact h.insertNew _

/-! ## Requests -/

/-- **A request does to the view what it does to the map**, and the pool stays sound. -/
theorem respond_view {p : Pool α} (h : p.Sound) (outside : σ) (r : Request σ α) :
    p.view.respond outside r =
        (((p.respond outside r).1.1.map Multiset.ofList, (p.respond outside r).1.2.view),
          (p.respond outside r).2) ∧
      (p.respond outside r).1.2.Sound := by
  cases r with
  | put g => exact ⟨by rw [GrammarMap.respond, ← view_put h]; rfl, h.put g⟩
  | get d => exact ⟨by rw [GrammarMap.respond, lookup_view h]; rfl, h⟩
  | remove d =>
    have : p.respond outside (.remove d) = ((.grammar (p.get? d), p.erase d), outside) := by
      simp only [respond, h.remove_eq]
    rw [this, GrammarMap.respond, lookup_view h, ← view_erase h]
    exact ⟨rfl, h.erase d⟩
  | contains d =>
    refine ⟨?_, h⟩
    have : decide (d ∈ p.view.grammars) = p.contains d := by
      unfold contains
      rw [← lookup_view h]
      exact (Bool.eq_iff_iff.2 (by rw [decide_eq_true_iff, Finmap.lookup_isSome]))
    rw [GrammarMap.respond, this]
    rfl
  | ofKind kind => exact ⟨by rw [GrammarMap.respond, ofKind_view h]; rfl, h⟩
  | cache kind gs => exact ⟨by rw [GrammarMap.respond, ← view_cache h]; rfl, h.cache kind gs⟩
  | resolve d compile =>
    exact ⟨by rw [GrammarMap.respond, view_resolveFrom h]; rfl, h.resolveFrom d compile outside⟩
  | size => exact ⟨by rw [GrammarMap.respond, card_keys_view h]; rfl, h⟩
  | isEmpty =>
    refine ⟨?_, h⟩
    have : decide (p.view.grammars.keys = ∅) = p.isEmpty := by
      rw [Bool.eq_iff_iff, decide_eq_true_iff, ← Finset.card_eq_zero, card_keys_view h]
      exact List.length_eq_zero_iff.trans List.isEmpty_iff.symm
    rw [GrammarMap.respond, this]
    rfl
  | isLocked => exact ⟨rfl, h⟩
  | clear => exact ⟨rfl, .clear p⟩
  | lock => exact ⟨rfl, h.withLock true⟩
  | unlock => exact ⟨rfl, h.withLock false⟩

theorem serve_view {p : Pool α} (h : p.Sound) (outside : σ) (rs : List (Request σ α)) :
    p.view.serve outside rs =
        (((p.serve outside rs).1.1.map (Answer.map Multiset.ofList),
          (p.serve outside rs).1.2.view), (p.serve outside rs).2) ∧
      (p.serve outside rs).1.2.Sound := by
  induction rs generalizing p outside with
  | nil => exact ⟨rfl, h⟩
  | cons r rs ih =>
    obtain ⟨hr, hsound⟩ := respond_view h outside r
    unfold GrammarMap.serve serve
    rw [hr]
    dsimp only
    obtain ⟨hrs, hsound⟩ := ih hsound (p.respond outside r).2
    exact ⟨by rw [hrs]; rfl, hsound⟩

/-- **A pool that starts empty is a finite map from descriptions to grammars**: it answers every
list of requests as the map does, up to the order in which several grammars are listed, and
compiles the same. What was put while it was not locked stays its grammar while requests are about
other descriptions, and different descriptions never share a key. -/
theorem serve_eq_map (outside : σ) (rs : List (Request σ α)) :
    (({} : Pool α).serve outside rs).1.1.map (Answer.map Multiset.ofList) =
        (({} : GrammarMap α).serve outside rs).1.1 ∧
      (({} : Pool α).serve outside rs).2 = (({} : GrammarMap α).serve outside rs).2 ∧
      (∀ (g : α) (later : List (Request σ α)) (outside' : σ),
        (({} : Pool α).serve outside rs).1.2.isLocked = false →
        (∀ r ∈ later, r.Spares (Described.description g)) →
        (((({} : Pool α).serve outside rs).1.2.put g).serve outside' later).1.2.get?
          (Described.description g) = some g) ∧
      Function.Injective PoolKey.of := by
  obtain ⟨hserve, hsound⟩ := serve_view .empty outside rs
  have hview : ({} : Pool α).view = {} := view_eq .empty rfl fun _ => rfl
  rw [hview] at hserve
  refine ⟨by rw [hserve], by rw [hserve], fun g later outside' hl hspares => ?_,
    PoolKey.of_injective⟩
  generalize (({} : Pool α).serve outside rs).1.2 = p at hsound hl
  obtain ⟨hlater, hsound'⟩ := serve_view (hsound.put g) outside' later
  have hg : (p.put g).view.grammars.lookup (Described.description g) = some g := by
    rw [view_put hsound]
    exact GrammarMap.lookup_put_self hl
  have hkept := GrammarMap.lookup_serve hspares outside' hg
  rw [hlater, lookup_view hsound'] at hkept
  exact hkept

/-- The grammar of no namespace is still there after the one of the empty namespace was put and
taken out again. -/
theorem get?_schema_after_other :
    ((({} : Pool Grammar).put { description := .schema none }).serve ()
      [.put { description := .schema (some "") }, .lock, .remove (.schema (some ""))]).1.2.get?
        (.schema none) = some { description := .schema none } :=
  (serve_eq_map () []).2.2.1 ({ description := .schema none } : Grammar) _ () rfl (by
    intro r hr
    simp only [List.mem_cons, List.not_mem_nil, or_false] at hr
    rcases hr with rfl | rfl | rfl
    · simp [Request.Spares, Described.description]
    · trivial
    · simp [Request.Spares, Described.description])

end Pool

end MarkupGrammar
