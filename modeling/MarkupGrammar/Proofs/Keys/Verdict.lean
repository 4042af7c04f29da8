import MarkupGrammar.Proofs.Keys.Field

/-! # Verdicts on selected elements

What an identity constraint makes of the elements that its selector has selected, in the order of
their end tags: the tuple of each, if it is complete, what is recorded of it, and what is reported.
Closing a selection does just that, in the activation that the selection belongs to
(`closeSelection_eq`). -/

namespace MarkupGrammar

variable {types : TypeTable} {c : Constraint} {t : Tree DeclaredTag} {v : FieldTuple}
  {tuples : List FieldTuple}

/-! ## Tuples -/

namespace Constraint

/-- The values of the fields at an element: the first that each field delivers in it, if any. -/
def values (types : TypeTable) (c : Constraint) (t : Tree DeclaredTag) : List (Option Value) :=
  c.fields.map fun e => ((t.map (·.tag)).delivered e).head?.map (·.typedValue types)

/-- The tuple of an element, if it is complete. -/
def tuple? (types : TypeTable) (c : Constraint) (t : Tree DeclaredTag) : Option FieldTuple :=
  if (c.values types t).all Option.isSome then some ((c.values types t).filterMap id) else none

/-- The numbers of the fields without value. -/
def missing (types : TypeTable) (c : Constraint) (t : Tree DeclaredTag) : List Nat :=
  ((c.values types t).zipIdx.filter fun (value?, _) => value?.isNone).map fun (_, i) => i + 1

/-! ## Verdicts -/

/-- The report of a key without value for some of its fields. -/
def incompleteViolation (types : TypeTable) (c : Constraint) (t : Tree DeclaredTag) : Violation :=
  ⟨.incompleteKey (c.missing types t) c.name, some c.name, none, some t.label.path⟩

/-- The report of a tuple that has been recorded before. -/
def duplicateViolation (c : Constraint) (t : Tree DeclaredTag) (v : FieldTuple) : Violation :=
  ⟨.duplicateKey v c.kind c.name, some c.name, some (Violation.tupleText v), some t.label.path⟩

/-- The tuple of an element that is recorded in addition to `tuples`. -/
def fresh? (types : TypeTable) (c : Constraint) (tuples : List FieldTuple) (t : Tree DeclaredTag) :
    Option FieldTuple :=
  (c.tuple? types t).filter fun v => c.kind ≠ .keyref ∧ v ∉ tuples

/-- What is recorded after an element. -/
def noted (types : TypeTable) (c : Constraint) (tuples : List FieldTuple) (t : Tree DeclaredTag) :
    List FieldTuple :=
  (c.fresh? types tuples t).toList ++ tuples

/-- What is reported of an element, where `tuples` have been recorded before. -/
def verdict (types : TypeTable) (c : Constraint) (tuples : List FieldTuple)
    (t : Tree DeclaredTag) : List Violation :=
  match c.tuple? types t with
  | none => if c.kind = .key then [c.incompleteViolation types t] else []
  | some v => if c.kind ≠ .keyref ∧ v ∈ tuples then [c.duplicateViolation t v] else []

/-- What is reported of elements, one after the other. -/
def verdicts (types : TypeTable) (c : Constraint) :
    List FieldTuple → List (Tree DeclaredTag) → List Violation
  | _, [] => []
  | tuples, t :: ts => c.verdict types tuples t ++ verdicts types c (c.noted types tuples t) ts

theorem verdicts_append (ts us : List (Tree DeclaredTag)) :
    c.verdicts types tuples (ts ++ us) =
      c.verdicts types tuples ts ++ c.verdicts types (ts.foldl (c.noted types) tuples) us := by
  induction ts generalizing tuples with
  | nil => rfl
  | cons t ts ih =>
    rw [List.cons_append, verdicts, verdicts, ih, List.append_assoc]
    rfl

/-- What is reported while a document is read. -/
theorem kind_of_mem_verdict {w : Violation} (hw : w ∈ c.verdict types tuples t) :
    w.kind = .incompleteKey ∨ w.kind = .duplicateKey := by
  unfold verdict at hw
  split at hw
  · split at hw
    · rw [List.mem_singleton.mp hw]
      exact .inl rfl
    · exact absurd hw List.not_mem_nil
  · split at hw
    · rw [List.mem_singleton.mp hw]
      exact .inr rfl
    · exact absurd hw List.not_mem_nil

/-- The tuples that are recorded of elements. -/
def recorded (types : TypeTable) (c : Constraint) (ts : List (Tree DeclaredTag)) :
    List FieldTuple :=
  if c.kind = .keyref then [] else ts.filterMap (c.tuple? types)

theorem fresh?_eq_some : c.fresh? types tuples t = some v ↔
    c.tuple? types t = some v ∧ c.kind ≠ .keyref ∧ v ∉ tuples := by
  rw [fresh?, Option.filter_eq_some_iff, decide_eq_true_iff]

theorem mem_recorded {ts : List (Tree DeclaredTag)} : v ∈ c.recorded types ts ↔
    c.kind ≠ .keyref ∧ ∃ t ∈ ts, c.tuple? types t = some v := by
  unfold recorded
  split
  · rename_i hk
    simp [hk]
  · rename_i hk
    rw [List.mem_filterMap, and_iff_right hk]

theorem mem_noted : v ∈ c.noted types tuples t ↔ v ∈ tuples ∨ v ∈ c.recorded types [t] := by
  rw [noted, List.mem_append, Option.mem_toList, fresh?_eq_some, mem_recorded]
  simp only [List.mem_singleton, exists_eq_left]
  tauto

theorem mem_foldl_noted (ts : List (Tree DeclaredTag)) :
    v ∈ ts.foldl (c.noted types) tuples ↔ v ∈ tuples ∨ v ∈ c.recorded types ts := by
  induction ts generalizing tuples with
  | nil => simp [mem_recorded]
  | cons t ts ih =>
    rw [List.foldl_cons, ih, mem_noted, mem_recorded, mem_recorded, mem_recorded]
    simp only [List.mem_cons, List.not_mem_nil, or_false, exists_eq_left, exists_eq_or_imp]
    tauto

end Constraint

/-! ## Closing a selection -/

namespace Activation

/-- The activation after a selected element has ended. -/
def noted (types : TypeTable) (a : Activation) (t : Tree DeclaredTag) : Activation :=
  { a with tuples := a.of.constraint.noted types a.tuples t }

/-- What is entered in the ledger at the end of a selected element. -/
def entries (types : TypeTable) (a : Activation) (t : Tree DeclaredTag) : Ledger :=
  (a.of.constraint.fresh? types a.tuples t).toList.map (a.of.number, ·)

/-- The references of a selected element. -/
def references (types : TypeTable) (a : Activation) (t : Tree DeclaredTag) : List OpenReference :=
  match a.of.constraint.kind, a.of.constraint.refer? with
  | .keyref, some refer =>
    (a.of.constraint.tuple? types t).toList.map fun v => ⟨a.of, refer, a.depth, v, t.label.path⟩
  | _, _ => []

theorem depth_of_mem_references {a : Activation} {r : OpenReference}
    (h : r ∈ a.references types t) : r.depth = a.depth := by
  unfold references at h
  split at h
  · obtain ⟨v, -, rfl⟩ := List.mem_map.mp h
    rfl
  · exact absurd h List.not_mem_nil

end Activation

/-- The selection has followed the element that it selects. -/
structure Selection.Ends (types : TypeTable) (s : Selection) (a : Activation)
    (t : Tree DeclaredTag) : Prop where
  of_eq : s.of = a.of
  path_eq : s.path = t.label.path
  values_eq : s.fields.map (·.value?) = a.of.constraint.values types t

namespace Selection.Ends

variable {s : Selection} {a : Activation}

theorem missing_eq (h : s.Ends types a t) : s.missing = a.of.constraint.missing types t := by
  rw [missing, Constraint.missing, ← h.values_eq, List.zipIdx_map, List.filter_map, List.map_map]
  rfl

theorem tuple_eq (h : s.Ends types a t) :
    s.tuple = (a.of.constraint.values types t).filterMap id := by
  rw [tuple, ← h.values_eq, List.filterMap_map]
  rfl

theorem isEmpty_missing (h : s.Ends types a t) :
    s.missing.isEmpty = (a.of.constraint.values types t).all Option.isSome := by
  have hfilter : (s.fields.zipIdx.filter fun x => x.1.value?.isNone).map Prod.fst =
      s.fields.filter (·.value?.isNone) := by
    conv_rhs => rw [← List.zipIdx_map_fst 0 s.fields, List.filter_map]
    rfl
  rw [Bool.eq_iff_iff, List.isEmpty_iff, ← h.values_eq, List.all_map, List.all_eq_true, missing,
    List.map_eq_nil_iff]
  constructor
  · intro hnil f hf
    have hnone := List.filter_eq_nil_iff.mp (hfilter.symm.trans (by rw [hnil]; rfl)) f hf
    simpa [Option.isSome_iff_ne_none] using hnone
  · intro hall
    refine List.map_eq_nil_iff.mp (hfilter.trans (List.filter_eq_nil_iff.mpr fun f hf => ?_))
    have hsome := hall f hf
    simpa [Option.isSome_iff_ne_none] using hsome

end Selection.Ends

namespace Keys

variable {k : Keys} {s : Selection} {a : Activation}

/-- The state after a selected element of the activation at a place has ended. -/
def close (types : TypeTable) (k : Keys) (place : Nat) (a : Activation) (t : Tree DeclaredTag) :
    Keys :=
  { k with
    activations := k.activations.set place (a.noted types t)
    ledgers := k.ledgers.modify (k.depth - a.depth) (a.entries types t ++ ·)
    waiting := k.waiting ++ a.references types t }

/-- Without a tuple to record, only references are added. -/
theorem close_of_not_fresh {place : Nat} (ha : k.activations[place]? = some a)
    (hf : a.of.constraint.fresh? types a.tuples t = none) :
    k.close types place a t = { k with waiting := k.waiting ++ a.references types t } := by
  have hset : k.activations.set place a = k.activations := by
    obtain ⟨hi, rfl⟩ := List.getElem?_eq_some_iff.mp ha
    exact List.set_getElem_self hi
  have hnoted : a.noted types t = a := by
    rw [Activation.noted, Constraint.noted, hf]
    rfl
  have hentries : a.entries types t = [] := by
    rw [Activation.entries, hf]
    rfl
  have hledgers : k.ledgers.modify (k.depth - a.depth) ([] ++ ·) = k.ledgers :=
    List.modify_id _ _
  rw [close, hnoted, hset, hentries, hledgers]

/-- Closing a selection whose fields all have a value. -/
theorem closeComplete_eq (ha : k.activations[s.activation]? = some a) (h : s.Ends types a t)
    (ht : a.of.constraint.tuple? types t = some s.tuple) :
    k.closeComplete s =
      (k.close types s.activation a t, a.of.constraint.verdict types a.tuples t) := by
  unfold closeComplete
  rw [ha, h.of_eq, h.path_eq, Constraint.verdict, ht]
  dsimp only
  split
  · rename_i refer hk hr
    rw [close_of_not_fresh ha, Activation.references, hk, hr, ht]
    · simp
    · simp [Constraint.fresh?, ht, hk]
  · rename_i hk hr
    rw [close_of_not_fresh ha, Activation.references, hk, hr]
    · simp
    · simp [Constraint.fresh?, ht, hk]
  · rename_i hnot hnot'
    have hk : a.of.constraint.kind ≠ .keyref := by
      intro hk
      cases hr : a.of.constraint.refer? with
      | none => exact hnot' hk hr
      | some refer => exact hnot refer hk hr
    have hreferences : a.references types t = [] := by
      unfold Activation.references
      split
      · rename_i hk' _
        exact absurd hk' hk
      · rfl
    by_cases hmem : s.tuple ∈ a.tuples
    · rw [if_pos (List.contains_iff_mem.mpr hmem), if_pos ⟨hk, hmem⟩, close_of_not_fresh ha,
        hreferences]
      · simp [Constraint.duplicateViolation]
      · simp [Constraint.fresh?, ht, hmem]
    · have hf : a.of.constraint.fresh? types a.tuples t = some s.tuple :=
        Constraint.fresh?_eq_some.mpr ⟨ht, hk, hmem⟩
      rw [if_neg (by simpa using hmem), if_neg fun h => hmem h.2, enter, close, hreferences,
        Activation.noted, Constraint.noted, Activation.entries, hf]
      simp

/-- **Closing a selection** notes the element in its activation and gives the verdict on it. -/
theorem closeSelection_eq (ha : k.activations[s.activation]? = some a) (h : s.Ends types a t) :
    k.closeSelection s =
      (k.close types s.activation a t, a.of.constraint.verdict types a.tuples t) := by
  have ht : a.of.constraint.tuple? types t =
      if s.missing.isEmpty then some s.tuple else none := by
    rw [Constraint.tuple?, h.isEmpty_missing, h.tuple_eq]
  unfold closeSelection
  split
  · rename_i hm
    rw [if_pos hm] at ht
    exact closeComplete_eq ha h ht
  · rename_i hm
    rw [if_neg hm] at ht
    have hf : a.of.constraint.fresh? types a.tuples t = none := by
      rw [Constraint.fresh?, ht]
      rfl
    have hreferences : a.references types t = [] := by
      unfold Activation.references
      rw [ht]
      split <;> rfl
    rw [close_of_not_fresh ha hf, hreferences, List.append_nil, Constraint.verdict, ht, h.of_eq,
      h.path_eq, h.missing_eq]
    dsimp only
    split <;> rfl

end Keys

end MarkupGrammar
