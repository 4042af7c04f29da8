import MarkupGrammar.Proofs.Grammar.Assembly
import MarkupGrammar.Proofs.Grammar.Attributes
import MarkupGrammar.SimpleType
import MarkupGrammar.SimpleType.Table
import Mathlib.Data.List.Nodup

/-! # Chains of types

A derived type is kept with all its bases, although its definition has nothing but the name of the
base. Nothing is lost by that: if the table has the same type under each of these names
(`ResolvedIn`), then looking up one name after the other finds the same built-in type and gives the
same result for each literal, with fuel for the chain (`rootWithin_eq`, `validateWithin_eq`).

Declared types stand after their bases, and no declaration takes a name away from another type
(`Ordered`). Each declaration keeps this, so all compiled grammars have it, and by induction on the
place in the table a chain is no longer than the table up to there (`resolvedIn_of_getElem?`). -/

namespace MarkupGrammar

/-! ## Reports of unknown bases

That the base of a type is unknown is reported for the type alone. What a built-in type reports of a
literal is never that, nor what a facet reports of a value, so a type whose bases are all known
reports it for no literal (`SimpleType.findsBase_validate`). -/

/-- Whether an unknown base is reported. -/
def Value.Fault.isUnknownBase : Value.Fault → Bool
  | .unknownBase _ _ => true
  | _ => false

/-- No unknown base is reported. -/
def FindsBase {α : Type} (x : Except Value.Fault α) : Prop :=
  ∀ e, x = .error e → ¬ e.isUnknownBase

namespace FindsBase

variable {α β ε : Type} {x y : Except Value.Fault α}

theorem ok (a : α) : FindsBase (.ok a) := fun _ => nofun

theorem error {e : Value.Fault} (h : e.isUnknownBase = false) :
    FindsBase (.error e : Except Value.Fault α) := by
  rintro _ ⟨⟩
  simp [h]

theorem ite {c : Prop} [Decidable c] (hx : FindsBase x) (hy : FindsBase y) :
    FindsBase (if c then x else y) := by
  split
  · exact hx
  · exact hy

theorem bind {f : α → Except Value.Fault β} (hx : FindsBase x) (hf : ∀ a, FindsBase (f a)) :
    FindsBase (x >>= f) := by
  cases x with
  | error e => exact .error (Bool.eq_false_iff.mpr (hx e rfl))
  | ok a => exact hf a

theorem map (f : α → β) (hx : FindsBase x) : FindsBase (x.map f) := by
  cases x with
  | error e => exact .error (Bool.eq_false_iff.mpr (hx e rfl))
  | ok a => exact .ok _

theorem mapError {f : ε → Value.Fault} (hf : ∀ e, (f e).isUnknownBase = false) (x : Except ε α) :
    FindsBase (x.mapError f) := by
  cases x with
  | error e => exact .error (hf e)
  | ok a => exact .ok a

theorem mapM {f : α → Except Value.Fault β} (hf : ∀ a, FindsBase (f a)) (xs : List α) :
    FindsBase (xs.mapM f) := by
  induction xs with
  | nil => exact .ok _
  | cons x xs ih =>
    rw [List.mapM_cons]
    exact (hf x).bind fun _ => ih.bind fun _ => .ok _

theorem forM {f : α → Except Value.Fault Unit} (hf : ∀ a, FindsBase (f a)) (xs : List α) :
    FindsBase (xs.forM f) := by
  induction xs with
  | nil => exact .ok _
  | cons x xs ih => exact (hf x).bind fun _ => ih

end FindsBase

namespace Builtin

variable (type s : String) (ctx : ValueContext)

theorem findsBase_readText (isInClass : List Char → Bool) :
    FindsBase (readText type s isInClass) := .ite (.ok _) (.error rfl)

theorem findsBase_readDecimal : FindsBase (readDecimal s) :=
  .ite (.mapError (fun _ => rfl) _) (.error rfl)

theorem findsBase_readInteger (minimum? maximum? : Option Int) :
    FindsBase (readInteger type s minimum? maximum?) := by
  have hthrow {e : Value.Fault} (h : e.isUnknownBase = false) :
      FindsBase (throw e : Except Value.Fault Decimal) := .error h
  rw [readInteger]
  cases hform : Decimal.isWholeForm s.toList with
  | false => exact .error rfl
  | true =>
    refine (findsBase_readDecimal s).bind fun d => ?_
    cases minimum? <;> cases maximum?
    · exact .ok d
    · exact .ite (.error rfl) (.ok _)
    · exact .ite (.error rfl) (.ok _)
    · exact .ite (.error rfl) (.ite (.error rfl) (.ok _))

theorem findsBase_readDouble : FindsBase (readDouble s) := by
  refine .ite (.ok _) (.ite (.ok _) (.ite (.ok _) (.ite (.error rfl) ?_)))
  cases Binary64.read? s.toList with
  | none => exact .error rfl
  | some x => exact .ok x

theorem findsBase_splitZone : FindsBase (splitZone s) :=
  .mapError (fun e => by cases e <;> rfl) _

theorem findsBase_readName : FindsBase (readName ctx s) := by
  refine .ite (.error rfl) ?_
  cases ctx.bindings? with
  | none => exact .ok _
  | some bindings => exact .mapError (fun _ => rfl) _

theorem findsBase_read (form : Form) : FindsBase (form.read type ctx s) := by
  cases form with
  | text => exact .ok _
  | language => exact .ite (.ok _) (.error rfl)
  | name => exact findsBase_readText _ _ _
  | uncolonizedName => exact findsBase_readText _ _ _
  | nameToken => exact findsBase_readText _ _ _
  | boolean => exact .ite (.ok _) (.ite (.ok _) (.error rfl))
  | decimal => exact (findsBase_readDecimal s).map _
  | integer minimum? maximum? => exact (findsBase_readInteger type s minimum? maximum?).map _
  | double => exact (findsBase_readDouble s).map _
  | date =>
    exact (findsBase_splitZone s).bind fun _ => .bind (.mapError (fun _ => rfl) _) fun _ => .ok _
  | dateTime =>
    refine (findsBase_splitZone s).bind fun r => .bind (.mapError (fun _ => rfl) _) fun x => ?_
    cases r.2 with
    | none => exact .ok _
    | some offset =>
      dsimp only
      split
      · exact .ok _
      · exact .error rfl
  | time =>
    refine (findsBase_splitZone s).bind fun r => .bind (.mapError (fun _ => rfl) _) fun _ => ?_
    cases r.2 <;> exact .ok _
  | uri =>
    refine .ite (.error rfl) ?_
    cases Uri.check s.toList with
    | ok u => exact .ok _
    | error e => exact .error rfl
  | base64 => exact .map _ (.mapError (fun _ => rfl) _)
  | hex => exact .map _ (.mapError (fun _ => rfl) _)
  | qualifiedName => exact (findsBase_readName s ctx).map _

theorem findsBase_validate (b : Builtin) : FindsBase (b.validate ctx s) := by
  rw [validate, read]
  cases b.kind with
  | atomic form => exact (findsBase_read _ _ ctx form).map _
  | listOf item form =>
    refine .bind (.mapM (fun word => findsBase_read item word ctx form) _) fun items => ?_
    exact .ite (.error rfl) (.ok _)

end Builtin

theorem Facet.findsBase_check (type : Name) (ctx : ValueContext) (literal : String)
    (value : Value) (f : Facet) : FindsBase (f.check type ctx literal value) := by
  cases f with
  | assertion expression =>
    rw [check]
    repeat' split
    · exact .ok _
    · exact .ok _
    · exact .error rfl
    · exact .error rfl
  | _ => exact .ite (.ok _) (.error rfl)

namespace SimpleType

/-- The bases are known, down to a built-in type. -/
def IsComplete : SimpleType → Prop
  | builtin _ => True
  | derived _ base => base.IsComplete
  | orphan _ => False

/-- **A type whose bases are known** never reports an unknown one. -/
theorem findsBase_validate {type : SimpleType} (h : type.IsComplete) (ctx : ValueContext)
    (s : String) : FindsBase (type.validate ctx s) := by
  induction type generalizing s with
  | builtin b => exact b.findsBase_validate s ctx
  | derived d base ih =>
    have hread : FindsBase (readByBase (base.validate ctx) d.variety (d.spacing.normalize s)) := by
      cases d.variety with
      | restriction => exact ih h _
      | list => exact (FindsBase.mapM (ih h) _).map _
    exact hread.bind fun v =>
      (FindsBase.forM (Facet.findsBase_check _ _ _ _) _).bind fun _ => .ok v
  | orphan d => exact h.elim

end SimpleType

/-! ## Chains -/

namespace SimpleType

variable {type : SimpleType} {t : TypeTable} {ctx : ValueContext} {s : String}

/-- The number of derivations from a built-in type. -/
def depth : SimpleType → Nat
  | builtin _ => 0
  | derived _ base => base.depth + 1
  | orphan _ => 0

/-- Each base on the way is the type that the table has under its name. -/
def ResolvedIn (t : TypeTable) : SimpleType → Prop
  | builtin _ => True
  | derived d base => t.find? d.base = some base ∧ base.ResolvedIn t
  | orphan _ => False

theorem ResolvedIn.exists_root (h : type.ResolvedIn t) : ∃ b, type.root? = some b := by
  induction type with
  | builtin b => exact ⟨b, rfl⟩
  | derived d base ih => exact ih h.2
  | orphan d => exact h.elim

theorem ResolvedIn.isComplete (h : type.ResolvedIn t) : type.IsComplete := by
  induction type with
  | builtin b => trivial
  | derived d base ih => exact ih h.2
  | orphan d => exact h

end SimpleType

namespace TypeTable

variable {t t' : TypeTable} {type : SimpleType} {n : Name} {ctx : ValueContext} {s : String}
  {fuel : Nat} {engine : PatternEngine}

theorem base?_eq (h : t.find? n = some type) : base? (some t) n = some type := by
  rw [base?, Option.bind_some, h, Option.some_or]

/-- **The chain of a name**, followed as long as there is fuel. -/
theorem rootWithin_eq (hn : t.find? n = some type) (h : type.ResolvedIn t) :
    t.rootWithin fuel n = if type.depth < fuel then type.root? else none := by
  induction type generalizing n fuel with
  | builtin b =>
    cases fuel with
    | zero => rfl
    | succ fuel =>
      rw [rootWithin, hn]
      rfl
  | derived d base ih =>
    cases fuel with
    | zero => rfl
    | succ fuel =>
      rw [rootWithin, hn]
      dsimp only
      rw [ih h.1 h.2, SimpleType.depth, SimpleType.root?]
      simp only [Nat.succ_lt_succ_iff]
  | orphan d => exact h.elim

theorem mapM_mk (f : String → Except Value.Fault Value) (xs : List String) :
    (xs.mapM fun x => (ExceptT.mk (some (f x)) : ExceptT Value.Fault Option Value)) =
      ExceptT.mk (some (xs.mapM f)) := by
  induction xs with
  | nil => rfl
  | cons x xs ih =>
    rw [List.mapM_cons, List.mapM_cons, ih]
    cases f x with
    | error e => rfl
    | ok v => cases xs.mapM f <;> rfl

theorem readBy_mk (read : String → Except Value.Fault Value) (variety : Variety)
    (literal : String) : readBy (fun s => ExceptT.mk (some (read s))) variety literal =
      ExceptT.mk (some (SimpleType.readByBase read variety literal)) := by
  cases variety with
  | restriction => rfl
  | list =>
    rw [readBy, mapM_mk, SimpleType.readByBase]
    cases (Text.words literal).mapM read <;> rfl

theorem validateBy_eq {d : Definition} {base : SimpleType}
    {validate : SimpleType → String → ExceptT Value.Fault Option Value}
    (hbase : t.find? d.base = some base)
    (h : ∀ s, validate base s = ExceptT.mk (some (base.validate ctx s))) :
    validateBy (some t) ctx validate d s =
      ExceptT.mk (some ((SimpleType.derived d base).validate ctx s)) := by
  rw [validateBy, base?_eq hbase]
  dsimp only
  rw [funext h, readBy_mk, SimpleType.validate]
  cases SimpleType.readByBase (base.validate ctx) d.variety (d.spacing.normalize s) with
  | error e => rfl
  | ok v =>
    -- what is left are the facets, which look nothing up
    change (ExceptT.mk (some (d.facets.forM _)) >>= fun _ => pure v) =
      ExceptT.mk (some (d.facets.forM _ >>= fun _ => pure v))
    cases d.facets.forM (Facet.check d.name ctx (d.spacing.normalize s) v) <;> rfl

/-- **Validation by names** gives the result of the type, as soon as there is fuel for its chain. -/
theorem validateWithin_eq (h : type.ResolvedIn t) (hfuel : type.depth < fuel) :
    validateWithin (some t) ctx fuel type s = ExceptT.mk (some (type.validate ctx s)) := by
  induction type generalizing fuel s with
  | builtin b =>
    cases fuel with
    | zero => exact absurd hfuel (Nat.not_lt_zero _)
    | succ fuel => rfl
  | derived d base ih =>
    cases fuel with
    | zero => exact absurd hfuel (Nat.not_lt_zero _)
    | succ fuel => exact validateBy_eq h.1 fun s => ih h.2 (Nat.lt_of_succ_lt_succ hfuel)
  | orphan d => exact h.elim

/-! ## Tables -/

/-- The entry of a table that a declaration leads to. -/
def Declares (d : TypeDraft) (entry : Name × SimpleType) : Prop :=
  ∃ definition base, entry = (d.name, SimpleType.derived definition base) ∧
    definition.name = d.name ∧ definition.base = d.base

/-- Types stand after their bases, under names of their own. -/
structure Ordered (t : TypeTable) : Prop where
  names_nodup : (t.derived.map Prod.fst).Nodup
  ofName?_eq_none : ∀ n ∈ t.derived.map Prod.fst, Builtin.ofName? n = none
  exists_base : ∀ {i : Nat} {n : Name} {type : SimpleType}, t.derived[i]? = some (n, type) →
    ∃ d base, type = .derived d base ∧ d.name = n ∧
      ((∃ b, Builtin.ofName? d.base = some b ∧ base = .builtin b) ∨
        ∃ j < i, t.derived[j]? = some (d.base, base))

theorem of_find? (h : t.find? n = some type) :
    (∃ b, Builtin.ofName? n = some b ∧ type = .builtin b) ∨
      ∃ i : Nat, t.derived[i]? = some (n, type) := by
  rw [find?] at h
  split at h
  · rename_i found hfound
    obtain rfl := Option.some.inj h
    exact .inr (List.getElem?_of_mem (mem_of_lookup hfound))
  · obtain ⟨b, hb, rfl⟩ := Option.map_eq_some_iff.mp h
    exact .inl ⟨b, hb, rfl⟩

theorem of_declare {d : TypeDraft} (h : t.declare engine d = .ok t') :
    ∃ definition base, t'.derived = t.derived ++ [(d.name, SimpleType.derived definition base)] ∧
      definition.name = d.name ∧ definition.base = d.base ∧ t.find? d.base = some base ∧
      t.find? d.name = none := by
  rw [declare] at h
  split at h
  · exact nomatch h
  · rename_i hnew
    rw [contains, Option.isSome_iff_ne_none, not_not] at hnew
    split at h
    · exact nomatch h
    · rename_i base hbase
      obtain ⟨definition, hcompile, h⟩ := of_bind_eq_ok h
      obtain ⟨p, -, hdefinition⟩ := of_bind_eq_ok (of_mapError_eq_ok hcompile)
      obtain rfl := Except.ok.inj h
      obtain rfl := Except.ok.inj hdefinition
      exact ⟨_, base, rfl, rfl, rfl, hbase, hnew⟩

theorem lookup_eq_none_iff : t.derived.lookup n = none ↔ n ∉ t.derived.map Prod.fst := by
  rw [List.lookup_eq_none_iff, List.mem_map, not_exists]
  refine forall_congr' fun entry => ?_
  rw [not_and, bne_iff_ne, ne_comm]

theorem find?_eq_none_iff :
    t.find? n = none ↔ n ∉ t.derived.map Prod.fst ∧ Builtin.ofName? n = none := by
  rw [← lookup_eq_none_iff, find?]
  cases t.derived.lookup n with
  | none => simp
  | some type => simp

namespace Ordered

variable {i : Nat}

theorem empty : ({} : TypeTable).Ordered := ⟨.nil, nofun, nofun⟩

theorem find?_of_mem (h : t.Ordered) (hmem : (n, type) ∈ t.derived) : t.find? n = some type := by
  rw [find?]
  cases hn : t.derived.lookup n with
  | none => exact absurd (List.mem_map_of_mem hmem) (lookup_eq_none_iff.mp hn)
  | some found =>
    have heq := List.inj_on_of_nodup_map h.names_nodup (mem_of_lookup hn) hmem rfl
    exact congrArg some (Prod.mk.inj heq).2

theorem find?_of_ofName? {b : Builtin} (h : t.Ordered) (hb : Builtin.ofName? n = some b) :
    t.find? n = some (.builtin b) := by
  have hn : n ∉ t.derived.map Prod.fst := fun hn =>
    nomatch (h.ofName?_eq_none n hn).symm.trans hb
  rw [find?, lookup_eq_none_iff.mpr hn, hb]
  rfl

/-- **A declaration** keeps the order. -/
theorem declare {d : TypeDraft} (h : t.Ordered) (hd : t.declare engine d = .ok t') :
    t'.Ordered := by
  obtain ⟨definition, base, hderived, hname, hbase, hfound, hnew⟩ := of_declare hd
  obtain ⟨hnew, hbuiltin⟩ := find?_eq_none_iff.mp hnew
  have hearlier {j : Nat} {entry : Name × SimpleType} (hj : t.derived[j]? = some entry) :
      t'.derived[j]? = some entry := by
    rw [hderived, List.getElem?_append_left (List.getElem?_eq_some_iff.mp hj).1, hj]
  refine ⟨?_, fun n hn => ?_, fun {i n type} hi => ?_⟩
  · rw [hderived, List.map_append, List.map_singleton, List.nodup_append']
    exact ⟨h.names_nodup, List.nodup_singleton _, List.disjoint_singleton.mpr hnew⟩
  · rw [hderived, List.map_append, List.map_singleton] at hn
    rcases List.mem_append.mp hn with hn | hn
    · exact h.ofName?_eq_none n hn
    · rwa [List.mem_singleton.mp hn]
  · rw [hderived] at hi
    rcases lt_trichotomy i t.derived.length with hlt | rfl | hgt
    · rw [List.getElem?_append_left hlt] at hi
      obtain ⟨d', base', htype, hn, hor⟩ := h.exists_base hi
      exact ⟨d', base', htype, hn, hor.imp_right fun ⟨j, hj, hb⟩ => ⟨j, hj, hearlier hb⟩⟩
    · rw [List.getElem?_concat_length] at hi
      obtain ⟨rfl, rfl⟩ := Prod.mk.inj (Option.some.inj hi)
      refine ⟨definition, base, rfl, hname, ?_⟩
      -- the base was found in the table so far, all of which stands before the new type
      rw [hbase]
      refine (of_find? hfound).imp_right fun ⟨j, hj⟩ => ⟨j, ?_, hearlier hj⟩
      exact (List.getElem?_eq_some_iff.mp hj).1
    · rw [List.getElem?_eq_none (by rwa [List.length_append])] at hi
      exact nomatch hi

/-- What stands at a place has its bases before it. -/
theorem resolvedIn_of_getElem? (h : t.Ordered) (hi : t.derived[i]? = some (n, type)) :
    type.ResolvedIn t ∧ type.depth ≤ i + 1 := by
  induction i using Nat.strong_induction_on generalizing n type with
  | _ i ih =>
    obtain ⟨d, base, rfl, -, ⟨b, hb, rfl⟩ | ⟨j, hj, hbase⟩⟩ := h.exists_base hi
    · exact ⟨⟨h.find?_of_ofName? hb, trivial⟩, Nat.le_add_left 1 i⟩
    · obtain ⟨hresolved, hdepth⟩ := ih j hj hbase
      have hfound := h.find?_of_mem (List.mem_of_getElem? hbase)
      exact ⟨⟨hfound, hresolved⟩, Nat.succ_le_succ (hdepth.trans hj)⟩

/-- **Each name** stands for a type whose bases are in the table, and no more than the table has. -/
theorem resolvedIn_of_find? (h : t.Ordered) (hn : t.find? n = some type) :
    type.ResolvedIn t ∧ type.depth ≤ t.size := by
  rcases of_find? hn with ⟨b, -, rfl⟩ | ⟨i, hi⟩
  · exact ⟨trivial, Nat.zero_le _⟩
  · obtain ⟨hresolved, hdepth⟩ := h.resolvedIn_of_getElem? hi
    exact ⟨hresolved, hdepth.trans (List.getElem?_eq_some_iff.mp hi).1⟩

theorem declareAll (h : t.Ordered) (ds : List TypeDraft) :
    (t.declareAll engine ds).1.Ordered := by
  induction ds generalizing t with
  | nil => exact h
  | cons d ds ih =>
    rw [TypeTable.declareAll]
    cases hd : t.declare engine d with
    | ok t' => exact ih (h.declare hd)
    | error cause => exact ih h

end Ordered

theorem forall₂_declareAll {ds : List TypeDraft} (h : (t.declareAll engine ds).2 = []) :
    ∃ entries, (t.declareAll engine ds).1.derived = t.derived ++ entries ∧
      List.Forall₂ Declares ds entries := by
  induction ds generalizing t with
  | nil => exact ⟨[], (List.append_nil _).symm, .nil⟩
  | cons d ds ih =>
    rw [declareAll] at h ⊢
    cases hd : t.declare engine d with
    | ok t' =>
      rw [hd] at h
      obtain ⟨entries, hentries, hall⟩ := ih h
      obtain ⟨definition, base, hderived, hname, hbase, -⟩ := of_declare hd
      refine ⟨(d.name, .derived definition base) :: entries, ?_,
        .cons ⟨definition, base, rfl, hname, hbase⟩ hall⟩
      rw [hentries, hderived, List.append_assoc, List.singleton_append]
    | error cause =>
      rw [hd] at h
      exact nomatch h

end TypeTable

/-! ## Compiled grammars -/

namespace GrammarDraft

open TypeTable

/-- **The types of a compiled grammar** stand after their bases, under names of their own. So to
follow the names from a type to its base takes at most one step for each declared type and one more.
With that many steps a built-in type is found, and a result for each literal, which is never that a
base is unknown. -/
theorem typeChains_of_compile {draft : GrammarDraft} {limits : Limits} {g : Grammar}
    (h : draft.compile limits = .ok g) :
    List.Forall₂ Declares draft.types g.types.derived ∧ g.types.Ordered ∧
      ∀ n type, g.types.find? n = some type →
        type.depth ≤ g.types.size ∧
        (∀ fuel, g.types.rootWithin fuel n = if type.depth < fuel then type.root? else none) ∧
        (∃ b ∈ Builtin.all, g.types.builtinRoot? n = some b ∧ type.root? = some b) ∧
        ∀ ctx s, (∀ fuel > g.types.size,
            (validateWithin (some g.types) ctx fuel type s).run = some (type.validate ctx s)) ∧
          ∀ base derived, type.validate ctx s ≠ .error (.unknownBase base derived) := by
  obtain ⟨contents, expressions, hfaultless, -⟩ := compile_eq_ok_iff.mp h
  have htypes := (declared_of_compile h).1
  have hordered : g.types.Ordered := by
    rw [htypes]
    exact Ordered.empty.declareAll _
  obtain ⟨entries, hderived, hall⟩ := forall₂_declareAll hfaultless.types
  rw [← htypes, List.nil_append] at hderived
  refine ⟨hderived ▸ hall, hordered, fun n type hn => ?_⟩
  obtain ⟨hresolved, hdepth⟩ := hordered.resolvedIn_of_find? hn
  have hrootWithin (fuel : Nat) :
      g.types.rootWithin fuel n = if type.depth < fuel then type.root? else none :=
    rootWithin_eq hn hresolved
  obtain ⟨b, hb⟩ := hresolved.exists_root
  have hbuiltin : b ∈ Builtin.all :=
    rooted_of_compile h n b (by rw [root?, hn, Option.bind_some, hb])
  refine ⟨hdepth, hrootWithin, ⟨b, hbuiltin, ?_, hb⟩, fun ctx s => ⟨fun fuel hfuel => ?_, ?_⟩⟩
  · rw [builtinRoot?, hrootWithin, if_pos (Nat.lt_succ_of_le hdepth), hb]
  · rw [validateWithin_eq hresolved (hdepth.trans_lt hfuel)]
    rfl
  · exact fun base derived herror =>
      SimpleType.findsBase_validate hresolved.isComplete ctx s _ herror rfl

/-- Prices, lists of them, and those with two items: a chain through all declared types. -/
def prices : GrammarDraft where
  description := .schema none
  types := [
    { name := .unqualified "price", base := .unqualified "decimal"
      facets := [.bound .minInclusive "0"] },
    { name := .unqualified "prices", base := .unqualified "price", variety := .list },
    { name := .unqualified "range", base := .unqualified "prices"
      facets := [.length .exactly 2] }]

/-- Three steps do not lead to the end of a chain through three types, four do. -/
theorem typeChains_of_compile_prices : ∃ g type, prices.compile {} = .ok g ∧
    g.types.find? (.unqualified "range") = some type ∧ type.depth = g.types.size ∧
    g.types.rootWithin 3 (.unqualified "range") = none ∧
    (∃ b ∈ Builtin.all, g.types.builtinRoot? (.unqualified "range") = some b ∧
      b.name = "decimal") ∧
    (validateWithin (some g.types) {} 4 type " 1.50  2 ").run =
      some (type.validate {} " 1.50  2 ") ∧
    ∃ v, type.validate {} " 1.50  2 " = .ok v := by
  have hall : (prices.compile {}).toOption.bind (fun g =>
      (g.types.find? (.unqualified "range")).map fun type =>
        (type.depth, g.types.size, type.root?.map (·.name),
          (type.validate {} " 1.50  2 ").isOk)) = some (3, 3, some "decimal", true) := by
    decide +kernel
  obtain ⟨g, hg, hall⟩ := Option.bind_eq_some_iff.mp hall
  obtain ⟨type, htype, hall⟩ := Option.map_eq_some_iff.mp hall
  simp only [Prod.mk.injEq] at hall
  obtain ⟨hdepth, hsize, hname, hok⟩ := hall
  obtain ⟨-, -, hchain⟩ := typeChains_of_compile (eq_ok_of_toOption hg)
  obtain ⟨-, hroot, ⟨b, hb, hbuiltin, hb'⟩, hvalidate⟩ := hchain _ _ htype
  refine ⟨g, type, eq_ok_of_toOption hg, htype, hdepth.trans hsize.symm, ?_, ⟨b, hb, hbuiltin, ?_⟩,
    (hvalidate _ _).1 4 (by omega), exists_of_isOk hok⟩
  · rw [hroot, hdepth, if_neg (by decide)]
  · rw [hb'] at hname
    exact Option.some.inj hname

end GrammarDraft

end MarkupGrammar
