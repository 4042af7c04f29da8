import MarkupGrammar.Proofs.Outcome
import MarkupGrammar.Proofs.Value.Decimal
import MarkupGrammar.SimpleType.Builtin

/-! # Derivation of built-in types

What a built-in type reads, each type reads that it is derived from, and as the same value, unless
that type reads everything as it is written (`validate_of_derivesFrom`). A step to the base is
looked up in the table: the form of the base includes that of the type (`Form.includes`), and no
type that reads everything is derived from one that does not. What is left is an induction on the
steps. -/

namespace MarkupGrammar

theorem Lexical.isName_of_isUncolonized {s : List Char} (h : isUncolonized s) : isName s := by
  cases s with
  | nil => exact h
  | cons c s =>
    rw [isUncolonized, Bool.and_eq_true, List.all_eq_true] at h
    rw [isName, Bool.and_eq_true, List.all_eq_true]
    exact ⟨Bool.or_eq_true_iff.mpr (.inl h.1),
      fun d hd => Bool.or_eq_true_iff.mpr (.inl (h.2 d hd))⟩

namespace Builtin

variable {f g : Form} {type type' s : String} {ctx : ValueContext} {x : Atom} {v : Value}
  {t a b : Builtin}

/-! ## Forms -/

theorem readText_eq_ok_iff {isInClass : List Char → Bool} :
    readText type s isInClass = .ok x ↔ isInClass s.toList ∧ x = .string s := by
  rw [readText]
  split
  · rename_i h
    simp [h, eq_comm]
  · rename_i h
    simp [h]

theorem readInteger_eq_ok_iff {minimum? maximum? : Option Int} {d : Decimal} :
    readInteger type s minimum? maximum? = .ok d ↔
      Decimal.isWholeForm s.toList ∧ readDecimal s = .ok d ∧
        (∀ m ∈ minimum?, (m : ℚ) ≤ d.toRat) ∧ ∀ m ∈ maximum?, d.toRat ≤ m := by
  rw [readInteger]
  cases hform : Decimal.isWholeForm s.toList with
  | false => exact ⟨(nomatch ·), fun h => nomatch h.1⟩
  | true =>
    cases hread : readDecimal s with
    | error e => exact ⟨(nomatch ·), fun h => nomatch h.2.1⟩
    | ok d' =>
      simp only [← not_lt, ← Decimal.compare_ofInt_eq_lt, ← Decimal.compare_ofInt_eq_gt]
      cases minimum? <;> cases maximum? <;>
        simp [bind, Except.bind, pure, Except.pure, throw, throwThe, MonadExceptOf.throw] <;> grind

/-- The name of the type is for reports only. -/
theorem Form.read_congr (type' : String) (h : f.read type ctx s = .ok x) :
    f.read type' ctx s = .ok x := by
  cases f with
  | uncolonizedName => exact readText_eq_ok_iff.mpr (readText_eq_ok_iff.mp h)
  | integer minimum? maximum? =>
    obtain ⟨d, hd, rfl⟩ := of_map_eq_ok h
    rw [read, readInteger_eq_ok_iff.mpr (readInteger_eq_ok_iff.mp hd)]
    rfl
  | _ => exact h

/-- Whether one form reads whatever the other one reads. -/
def Form.includes : Form → Form → Bool
  | text, _ => true
  | name, uncolonizedName => true
  | decimal, integer _ _ => true
  | integer minimum? maximum?, integer minimum?' maximum?' =>
    minimum?.all (fun m => minimum?'.any (m ≤ ·)) && maximum?.all (fun m => maximum?'.any (· ≤ m))
  | f, g => f == g

/-- **Forms that include others** read the same values, unless they read everything. -/
theorem Form.read_of_includes (hincludes : f.includes g) (hf : f ≠ text) (type' : String)
    (h : g.read type ctx s = .ok x) : f.read type' ctx s = .ok x := by
  revert hincludes
  fun_cases Form.includes f g with
  | case1 => exact absurd rfl hf
  | case2 =>
    intro _
    obtain ⟨hs, rfl⟩ := readText_eq_ok_iff.mp h
    exact readText_eq_ok_iff.mpr ⟨Lexical.isName_of_isUncolonized hs, rfl⟩
  | case3 =>
    intro _
    obtain ⟨d, hd, rfl⟩ := of_map_eq_ok h
    rw [read, (readInteger_eq_ok_iff.mp hd).2.1]
    rfl
  | case4 minimum? maximum? minimum?' maximum?' =>
    intro hbounds
    simp only [Bool.and_eq_true, Option.all_eq_true, Option.any_eq_true, decide_eq_true_eq]
      at hbounds
    obtain ⟨d, hd, rfl⟩ := of_map_eq_ok h
    obtain ⟨hform, hread, hmin, hmax⟩ := readInteger_eq_ok_iff.mp hd
    -- a bound of the including form has one of the other form within it
    have hbounded : readInteger type' s minimum? maximum? = .ok d := by
      refine readInteger_eq_ok_iff.mpr ⟨hform, hread, fun m hm => ?_, fun m hm => ?_⟩
      · obtain ⟨m', hm', hle⟩ := hbounds.1 m hm
        exact (Int.cast_le.mpr hle).trans (hmin m' hm')
      · obtain ⟨m', hm', hle⟩ := hbounds.2 m hm
        exact (hmax m' hm').trans (Int.cast_le.mpr hle)
    rw [read, hbounded]
    rfl
  | case5 =>
    intro heq
    exact read_congr type' (beq_iff_eq.mp heq ▸ h)

/-! ## Steps to the base -/

/-- Whether every literal is read, as it is written. -/
def readsAll (b : Builtin) : Bool := b.kind == .atomic .text

/-- Whether one type reads whatever the other one reads, after the same treatment of white space. -/
def includes (a t : Builtin) : Bool :=
  match a.kind, t.kind with
  | .atomic f, .atomic g => f.includes g && a.spacing == t.spacing
  | _, _ => false

theorem exists_validate_of_readsAll (ha : a.readsAll) (ctx : ValueContext) (s : String) :
    ∃ v, a.validate ctx s = .ok v := by
  rw [readsAll, beq_iff_eq] at ha
  rw [validate, read, ha]
  exact ⟨_, rfl⟩

theorem validate_of_includes (hincludes : a.includes t) (ha : ¬ a.readsAll)
    (h : t.validate ctx s = .ok v) : a.validate ctx s = .ok v := by
  rw [includes] at hincludes
  split at hincludes
  · rename_i f g hf hg
    rw [Bool.and_eq_true, beq_iff_eq] at hincludes
    have htext : f ≠ .text := by
      rintro rfl
      exact ha (by rw [readsAll, hf, beq_self_eq_true])
    rw [validate, read, hg] at h
    obtain ⟨x, hx, rfl⟩ := of_map_eq_ok h
    rw [validate, read, hf, hincludes.2]
    dsimp only
    rw [Form.read_of_includes hincludes.1 htext a.name hx]
    rfl
  · exact nomatch hincludes

/-- A step from a type to its base, as the table has it. -/
theorem includes_of_base (ht : t ∈ all) (h : t.base?.bind find? = some b) :
    b.readsAll ∨ ¬ t.readsAll ∧ b.includes t := by
  have htable : ∀ t ∈ all, ∀ b ∈ t.base?.bind find?,
      b.readsAll ∨ ¬ t.readsAll ∧ b.includes t := by
    decide
  exact htable t ht b h

theorem eq_of_name_eq (ht : t ∈ all) (ha : a ∈ all) (h : t.name = a.name) : t = a := by
  have htable : ∀ b ∈ all, find? b.name = some b := by decide
  exact Option.some.inj ((htable t ht).symm.trans (h ▸ htable a ha))

/-! ## Derivation -/

theorem of_derivesFromWithin {fuel : Nat} (ht : t ∈ all) (ha : a ∈ all)
    (h : derivesFromWithin a.name fuel t) :
    a.readsAll ∨ ¬ t.readsAll ∧ ∀ v, t.validate ctx s = .ok v → a.validate ctx s = .ok v := by
  induction fuel generalizing t with
  | zero => exact nomatch h
  | succ fuel ih =>
    rw [derivesFromWithin, Bool.or_eq_true, beq_iff_eq] at h
    rcases h with h | h
    · obtain rfl := eq_of_name_eq ht ha h
      exact or_iff_not_imp_left.mpr fun hall => ⟨hall, fun _ hv => hv⟩
    · split at h
      · rename_i b hb
        obtain ⟨name, -, hfind⟩ := Option.bind_eq_some_iff.mp hb
        refine (ih (List.mem_of_find?_eq_some hfind) h).imp_right fun ⟨hall, hbase⟩ => ?_
        -- the base does not read everything, so that it includes the type
        obtain ⟨hall', hincludes⟩ := (includes_of_base ht hb).resolve_left hall
        exact ⟨hall', fun v hv => hbase v (validate_of_includes hincludes hall hv)⟩
      · exact nomatch h

/-- A type that does not read everything reads the values of the types derived from it. -/
theorem validate_eq_of_derivesFrom (ht : t ∈ all) (ha : a ∈ all) (h : t.derivesFrom a.name)
    (hall : ¬ a.readsAll) (hv : t.validate ctx s = .ok v) : a.validate ctx s = .ok v :=
  ((of_derivesFromWithin ht ha h).resolve_left hall).2 v hv

/-- **Derivation of built-in types is sound:** a type reads what the types derived from it read, and
numbers as the same value. -/
theorem validate_of_derivesFrom (ht : t ∈ all) (ha : a ∈ all) (h : t.derivesFrom a.name)
    (hv : t.validate ctx s = .ok v) :
    (∃ w, a.validate ctx s = .ok w) ∧
      (a.derivesFrom "decimal" → a.validate ctx s = .ok v) := by
  have hnumber : ∀ a ∈ all, a.derivesFrom "decimal" → ¬ a.readsAll := by decide
  refine ⟨?_, fun hdecimal => validate_eq_of_derivesFrom ht ha h (hnumber a ha hdecimal) hv⟩
  by_cases hall : a.readsAll
  · exact exists_validate_of_readsAll hall ctx s
  · exact ⟨v, validate_eq_of_derivesFrom ht ha h hall hv⟩

/-- A byte with a sign, zeros in front and blanks around it. -/
theorem validate_of_derivesFrom_byte :
    (∃ w, (atomic "decimal" "anySimpleType" .decimal).validate {} " +007 " = .ok w) ∧
      ((atomic "decimal" "anySimpleType" .decimal).derivesFrom "decimal" →
        (atomic "decimal" "anySimpleType" .decimal).validate {} " +007 " =
          .ok (.atom (.decimal (.ofInt 7)))) :=
  validate_of_derivesFrom (t := atomic "byte" "short" (signed 8)) (by decide)
    (by decide) (by decide) (eq_ok_of_toOption (by decide))

end Builtin

end MarkupGrammar
