import MarkupGrammar.Proofs.Pool

/-! # What a lock keeps

While a pool is locked, no request adds a grammar or puts one in place of another, but grammars can
still be taken out: a request *drops* a description if it removes its grammar or clears the pool.
So what a sound pool has at the end of requests served under the lock is what it had at the lock,
less what one of them drops (`serve_locked`), and it is the same exactly if none of them drops a
grammar that was there. -/

namespace MarkupGrammar

namespace Pool

/-- The request takes out what there is of a description, and puts nothing in its place. -/
def Request.drops {α σ : Type} (d : Description) : Request σ α → Bool
  | .remove d' => d == d'
  | .clear => true
  | _ => false

variable {α σ : Type} [Described α]

/-- The pool with the grammars of some descriptions only. -/
def restrict (p : Pool α) (keep : Description → Bool) : Pool α :=
  { p with entries := p.entries.filter fun e => keep (Described.description e.2) }

variable {p : Pool α}

@[simp] theorem restrict_true : p.restrict (fun _ => true) = p := by
  unfold restrict
  rw [List.filter_true]

theorem restrict_restrict (keep keep' : Description → Bool) :
    (p.restrict keep).restrict keep' = p.restrict fun d => keep' d && keep d := by
  unfold restrict
  dsimp only
  rw [List.filter_filter]

theorem restrict_eq_self {keep : Description → Bool} :
    p.restrict keep = p ↔ ∀ e ∈ p.entries, keep (Described.description e.2) = true := by
  rw [← List.filter_eq_self]
  exact ⟨congrArg entries, fun h => congrArg (Pool.mk · p.isLocked) h⟩

namespace Sound

variable (h : p.Sound)
include h

theorem restrict (keep : Description → Bool) : (p.restrict keep).Sound where
  nodup := h.nodup.sublist (List.filter_sublist.map _)
  own e he := h.own e (List.mem_of_mem_filter he)

theorem erase_eq_restrict (d : Description) : p.erase d = p.restrict fun d' => !(d' == d) := by
  unfold Pool.erase Pool.restrict
  congr 1
  refine List.filter_congr fun e he => ?_
  rw [h.own e he, bne, keyOf]
  congr 1
  rw [Bool.eq_iff_iff, beq_iff_eq, beq_iff_eq, PoolKey.of_inj]

theorem get?_restrict (keep : Description → Bool) (d : Description) :
    (p.restrict keep).get? d = if keep d then p.get? d else none := by
  refine Option.ext fun g => ?_
  rw [(h.restrict keep).get?_eq, lookup_eq_some_iff_mem (h.restrict keep).nodup, h.get?_eq]
  unfold Pool.restrict
  rw [List.mem_filter, ← lookup_eq_some_iff_mem h.nodup]
  constructor
  · rintro ⟨hg, hkeep⟩
    rw [h.description_of_lookup hg] at hkeep
    rw [if_pos hkeep, hg]
  · intro hg
    split at hg
    · rename_i hkeep
      exact ⟨hg, by rw [h.description_of_lookup hg, hkeep]⟩
    · cases hg

end Sound

/-! ## Requests under the lock -/

theorem resolveFrom_locked (hl : p.isLocked = true) (d : Description)
    (compile : σ → Except Failure α × σ) (outside : σ) :
    (p.resolveFrom d compile outside).1.2 = p := by
  unfold resolveFrom
  split
  · rfl
  · dsimp only
    split
    · rfl
    · rw [hl, if_pos rfl]
      split <;> rfl

/-- **A request to a locked pool keeps the lock and all that it does not drop**, unless it is to
unlock the pool. -/
theorem respond_locked (h : p.Sound) (hl : p.isLocked = true) {r : Request σ α} (hr : r ≠ .unlock)
    (outside : σ) :
    (p.respond outside r).1.2 = p.restrict fun d => !r.drops d := by
  cases r with
  | put g => exact (if_pos hl).trans restrict_true.symm
  | remove d => exact (congrArg Prod.snd (h.remove_eq d)).trans (h.erase_eq_restrict d)
  | cache kind gs => exact (if_pos hl).trans restrict_true.symm
  | resolve d compile => exact (resolveFrom_locked hl d compile outside).trans restrict_true.symm
  | clear => exact congrArg (Pool.mk · p.isLocked) (List.filter_false p.entries).symm
  | lock => exact (congrArg (Pool.mk p.entries) hl.symm).trans restrict_true.symm
  | unlock => exact absurd rfl hr
  | _ => exact restrict_true.symm

theorem serve_locked (h : p.Sound) (hl : p.isLocked = true) {rs : List (Request σ α)}
    (hrs : .unlock ∉ rs) (outside : σ) :
    (p.serve outside rs).1.2 = p.restrict fun d => !rs.any (·.drops d) := by
  induction rs generalizing p outside with
  | nil => exact restrict_true.symm
  | cons r rs ih =>
    have hr := respond_locked h hl (fun hr => hrs (hr ▸ .head _)) outside
    have hrest := ih (h.restrict fun d => !r.drops d) hl (fun hm => hrs (.tail _ hm))
      (p.respond outside r).2
    rw [serve]
    dsimp only
    rw [hr, hrest, restrict_restrict]
    simp only [List.any_cons, Bool.not_or, Bool.and_comm]

/-- **A locked pool is read-only but for what is taken out of it.** Whatever a pool that started
empty was asked before it was locked, and whatever it is asked then and until it is unlocked, it
stays locked, no grammar is added or replaced, and those that are no longer there were removed or
cleared by a request of that time. So the grammars are the same at the end as at the lock exactly if
no request drops one that was there. -/
theorem serve_lock_iff (before : List (Request σ α)) (outside outside' : σ)
    (rs : List (Request σ α)) (hrs : .unlock ∉ rs) :
    let p := (({} : Pool α).serve outside before).1.2.lock
    let q := (p.serve outside' rs).1.2
    q.isLocked = true ∧
      (∀ d, q.get? d = if rs.any (·.drops d) then none else p.get? d) ∧
      (q.entries = p.entries ↔
        ∀ e ∈ p.entries, ∀ r ∈ rs, r.drops (Described.description e.2) = false) := by
  intro p q
  have hp : p.Sound := (serve_view .empty outside before).2.withLock true
  have hq : q = p.restrict fun d => !rs.any (·.drops d) := serve_locked hp rfl hrs outside'
  rw [hq]
  refine ⟨rfl, fun d => ?_, ?_⟩
  · rw [hp.get?_restrict]
    cases rs.any (·.drops d) <;> rfl
  · have hentries : (p.restrict fun d => !rs.any (·.drops d)).entries = p.entries ↔
        p.restrict (fun d => !rs.any (·.drops d)) = p :=
      ⟨fun heq => congrArg (Pool.mk · p.isLocked) heq, congrArg entries⟩
    rw [hentries, restrict_eq_self]
    simp only [Bool.not_eq_true', List.any_eq_false, Bool.not_eq_true]

/-- Under the lock, the grammar of one namespace is removed, and that of another is neither replaced
nor joined by a third. -/
theorem serve_lock_remove :
    let p := ((({} : Pool Grammar).serve () [.put { description := .schema none },
      .put { description := .schema (some "urn:a") }]).1.2).lock
    let q := (p.serve () [.put { description := .schema (some "urn:b") },
      .remove (.schema (some "urn:a")), .lock]).1.2
    q.isLocked = true ∧
      q.get? (.schema none) = some { description := .schema none } ∧
      q.get? (.schema (some "urn:a")) = none ∧ q.get? (.schema (some "urn:b")) = none ∧
      q.entries ≠ p.entries := by
  obtain ⟨hl, hget, hsame⟩ := serve_lock_iff (α := Grammar)
    [.put { description := .schema none }, .put { description := .schema (some "urn:a") }] () ()
    [.put { description := .schema (some "urn:b") }, .remove (.schema (some "urn:a")), .lock]
    (by simp)
  refine ⟨hl, hget _, hget _, hget _, fun h => ?_⟩
  have hdrops := hsame.1 h (PoolKey.of (.schema (some "urn:a")),
    { description := .schema (some "urn:a") }) (.head _) (.remove (.schema (some "urn:a")))
    (.tail _ (.head _))
  exact absurd hdrops (by decide)

/-- Clearing a locked pool takes out what it has. -/
theorem exists_locked_changed : ∃ before rs : List (Request Unit Grammar), .unlock ∉ rs ∧
    let p := (({} : Pool Grammar).serve () before).1.2.lock
    p.entries.map (·.1) = [⟨.schema, none⟩] ∧ (p.serve () rs).1.2.entries = [] :=
  ⟨[.put { description := .schema none }], [.clear], by simp, rfl, rfl⟩

end Pool

end MarkupGrammar
