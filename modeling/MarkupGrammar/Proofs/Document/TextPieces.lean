import MarkupGrammar.Proofs.Document.Passage
import MarkupGrammar.Proofs.Document.Session
import MarkupGrammar.Proofs.Document.WellFormed
import MarkupGrammar.Proofs.Path.Matcher

/-! # Text in pieces

The text between two tags may arrive as one piece or as several. What is kept of it is the same
either way: values and buffers are put together from the pieces, and text that is not allowed is
reported once, at the first piece that counts. So two validations that have read the same text in
different pieces are the *same but for texts*: they differ at most in which text their violations
show. No request can tell them apart by more than that (`SameButTexts.respond`), and the reports are
those of the undivided text (`reports_pieces`). -/

namespace MarkupGrammar

variable {g : Grammar} {o : ValidationOptions}

/-- The violation without its value, if it is one of text that is not allowed. -/
def Violation.withoutText (v : Violation) : Violation :=
  if v.kind = .textNotAllowed then { v with value? := none } else v

/-- The report without the texts that are not allowed. -/
def Report.withoutTexts (r : Report) : Report := ⟨r.violations.map Violation.withoutText⟩

/-! ## Two pieces -/

namespace ContentWalk

/-- An element receives a text as it receives the pieces of the text, apart from what is shown of
text that is not allowed. -/
theorem receive_append (d : ElementDeclaration) (e : OpenElement) (s t : String) :
    (receive d e (s ++ t)).1 = (receive d (receive d e s).1 t).1 ∧
      (receive d e (s ++ t)).2.map Violation.withoutText =
        ((receive d e s).2 ++ (receive d (receive d e s).1 t).2).map Violation.withoutText := by
  unfold receive
  by_cases hs : d.content.category = .simple
  · simp [hs, String.append_assoc]
  · cases hallows : d.content.category.allowsText with
    | true => simp [hs, hallows]
    | false =>
      cases hreported : e.isTextReported with
      | true => simp [hs, hallows, hreported]
      | false =>
        -- only the first piece that is not blank counts
        cases hblank : s.toList.all Text.isMarkupBlank with
        | false =>
          simp [hs, hallows, hblank, Violation.withoutText, Violation.kind, Violation.Cause.kind]
        | true =>
          cases hblank' : t.toList.all Text.isMarkupBlank with
          | false =>
            simp [hs, hallows, hreported, hblank, hblank', Violation.withoutText, Violation.kind,
              Violation.Cause.kind]
          | true => simp [hs, hallows, hreported, hblank, hblank']

/-- A walk follows a text as it follows the pieces of the text; whether it can follow text at all
does not depend on the text. -/
theorem characters_append (w : ContentWalk) (s t : String) :
    (∃ f, ∀ text, w.characters g text = .error f) ∨
      ∃ w₁ w₂ vs₁ vs₂ vs, w.characters g s = .ok (w₁, vs₁) ∧ w₁.characters g t = .ok (w₂, vs₂) ∧
        w.characters g (s ++ t) = .ok (w₂, vs) ∧
        vs.map Violation.withoutText = (vs₁ ++ vs₂).map Violation.withoutText := by
  obtain ⟨opened⟩ := w
  cases opened with
  | nil => exact .inr ⟨_, _, _, _, _, rfl, rfl, rfl, rfl⟩
  | cons e rest =>
    unfold characters
    dsimp only
    cases hm : e.mode with
    | lax =>
      refine .inr ⟨_, _, _, _, _, rfl, ?_, rfl, rfl⟩
      dsimp only
      rw [hm]
    | skip =>
      refine .inr ⟨_, _, _, _, _, rfl, ?_, rfl, rfl⟩
      dsimp only
      rw [hm]
    | declared i =>
      dsimp only
      cases hd : declaration g i with
      | error f => exact .inl ⟨f, fun _ => rfl⟩
      | ok d =>
        obtain ⟨helement, hreported⟩ := receive_append d e s t
        refine .inr ⟨⟨(receive d e s).1 :: rest⟩, ⟨(receive d e (s ++ t)).1 :: rest⟩, _, _, _, rfl,
          ?_, rfl, hreported⟩
        dsimp only
        rw [mode_receive, hm]
        dsimp only
        rw [hd, helement]
        rfl

end ContentWalk

theorem PooledKeys.characters_append (k : PooledKeys) (s t : String) :
    (k.characters s).characters t = k.characters (s ++ t) := by
  simp [PooledKeys.characters, Keys.characters, Selection.characters, Function.comp_def,
    Matcher.characters_append]

namespace Validation

variable {v w : Validation}

/-- The validations differ in the texts that are shown as not allowed at most. -/
structure SameButTexts (v w : Validation) : Prop where
  walk : v.walk = w.walk
  keys : v.keys = w.keys
  identifiers : v.identifiers = w.identifiers
  violations : v.violations.map Violation.withoutText = w.violations.map Violation.withoutText

theorem SameButTexts.refl (v : Validation) : SameButTexts v v := ⟨rfl, rfl, rfl, rfl⟩

theorem SameButTexts.trans {u : Validation} (h : SameButTexts u v) (h' : SameButTexts v w) :
    SameButTexts u w :=
  ⟨h.walk.trans h'.walk, h.keys.trans h'.keys, h.identifiers.trans h'.identifiers,
    h.violations.trans h'.violations⟩

/-- **Two pieces of text** are followed, or fail, as the text that they make up. -/
theorem step_characters_append (v : Validation) (s t : String) :
    let first := v.step g o (.characters s)
    let whole := v.step g o (.characters (s ++ t))
    first.1 = whole.1 ∧ Alike SameButTexts (first.2.step g o (.characters t)) whole := by
  rcases v.walk.characters_append (g := g) s t with
    ⟨f, hfails⟩ | ⟨w₁, w₂, vs₁, vs₂, vs', hs, ht, hst, hreported⟩
  · have hstep (text : String) : v.step g o (.characters text) = (.error f, v) :=
      step_characters_of_error (hfails text)
    simp only [hstep]
    exact ⟨trivial, rfl, .refl v⟩
  · let first : Validation := (v.pass g o (.text s vs₁)).walking w₁
    have hsecond : first.step g o (.characters t) =
        (.ok (), (first.pass g o (.text t vs₂)).walking w₂) := step_characters ht
    have hkeys : (if o.checksConstraints then first.keys.characters t else first.keys) =
        if o.checksConstraints then v.keys.characters (s ++ t) else v.keys := by
      have hfirst : first.keys = if o.checksConstraints then v.keys.characters s else v.keys := rfl
      rw [hfirst]
      by_cases ho : o.checksConstraints
      · rw [if_pos ho, if_pos ho, if_pos ho]
        exact v.keys.characters_append s t
      · rw [if_neg ho, if_neg ho, if_neg ho]
    rw [step_characters hs, step_characters hst]
    dsimp only
    rw [hsecond]
    refine ⟨rfl, rfl, rfl, hkeys, rfl, ?_⟩
    change ((v.violations ++ vs₁) ++ vs₂).map Violation.withoutText =
      (v.violations ++ vs').map Violation.withoutText
    simp only [List.map_append, hreported, List.append_assoc]

/-! ## Events -/

theorem SameButTexts.pass (h : SameButTexts v w) (p : Passage) :
    SameButTexts (v.pass g o p) (w.pass g o p) := by
  obtain ⟨walk, k, ids, vs⟩ := v
  obtain ⟨walk', k', ids', vs'⟩ := w
  obtain ⟨rfl, rfl, rfl, hvs⟩ := h
  have hreport (new : List Violation) : (vs ++ new).map Violation.withoutText =
      (vs' ++ new).map Violation.withoutText := by
    rw [List.map_append, List.map_append, hvs]
  cases p with
  | start e as reported => exact ⟨rfl, rfl, rfl, hreport _⟩
  | text s reported => exact ⟨rfl, rfl, rfl, hreport _⟩
  | stop reported => exact ⟨rfl, rfl, rfl, hreport _⟩

/-- An event is followed, or fails, the same way. -/
theorem SameButTexts.step (h : SameButTexts v w) (e : Event) :
    Alike SameButTexts (v.step g o e) (w.step g o e) := by
  rw [step_eq, step_eq, h.walk]
  rcases passage g o w.walk e with ⟨f | p, next⟩
  · exact ⟨rfl, rfl, h.keys, h.identifiers, h.violations⟩
  · have hpass := h.pass (g := g) (o := o) p
    exact ⟨rfl, rfl, hpass.keys, hpass.identifiers, hpass.violations⟩

/-- The end of the document brings the same report, apart from texts that are not allowed. -/
theorem SameButTexts.finish (h : SameButTexts v w) :
    (v.finish g o).1.map Report.withoutTexts = (w.finish g o).1.map Report.withoutTexts ∧
      SameButTexts (v.finish g o).2 (w.finish g o).2 := by
  obtain ⟨walk, k, ids, vs⟩ := v
  obtain ⟨walk', k', ids', vs'⟩ := w
  obtain ⟨rfl, rfl, rfl, hvs⟩ := h
  have hreport (new : List Violation) : Report.withoutTexts ⟨vs ++ new⟩ =
      Report.withoutTexts ⟨vs' ++ new⟩ := by
    unfold Report.withoutTexts
    rw [List.map_append, List.map_append, hvs]
  unfold Validation.finish Validation.depth
  dsimp only
  split
  · exact ⟨rfl, rfl, rfl, rfl, hvs⟩
  · refine ⟨?_, rfl, rfl, rfl, rfl⟩
    simp only [Except.map, List.append_assoc]
    rw [hreport]

/-! ## Pieces -/

/-- The pieces of a text, one at least, are followed, or fail, as the text. -/
theorem alike_pieces (v : Validation) (t : String) (ts : List String) :
    Alike SameButTexts (v.run g o ((t :: ts).map .characters))
      (v.step g o (.characters (String.join (t :: ts)))) := by
  induction ts generalizing v t with
  | nil =>
    rw [String.join_cons, String.join_nil, String.append_empty, List.map_singleton, run_singleton]
    exact ⟨rfl, .refl _⟩
  | cons u us ih =>
    obtain ⟨hfirst, htwo⟩ := v.step_characters_append (g := g) (o := o) t (String.join (u :: us))
    rw [String.join_cons, List.map_cons, run_cons_eq]
    rcases hv : v.step g o (.characters t) with ⟨f | ⟨⟩, next⟩
    · -- nothing is read if the first piece fails
      rw [hv] at hfirst
      have hpiece : v.step g o (.characters t) = (.error f, v) :=
        settle_of_error (congrArg Prod.fst hv)
      have hwhole : v.step g o (.characters (t ++ String.join (u :: us))) = (.error f, v) :=
        settle_of_error hfirst.symm
      rw [hwhole, ← hpiece, hv]
      exact ⟨rfl, .refl _⟩
    · rw [hv] at htwo
      exact (ih next u).trans (fun h h' => h.trans h') htwo

/-- The requests to follow the pieces of a text. -/
def pieceRequests (ts : List String) : List Request := ts.map fun t => .event (.characters t)

/-- Pieces of a text that are followed, or not, whether others have failed or not, lead to what the
text leads to. -/
theorem serve_pieces (v : Validation) (t : String) (ts : List String) :
    SameButTexts (v.serve g o (pieceRequests (t :: ts))).2
      (v.step g o (.characters (String.join (t :: ts)))).2 := by
  induction ts generalizing v t with
  | nil =>
    rw [String.join_cons, String.join_nil, String.append_empty]
    exact .refl _
  | cons u us ih =>
    obtain ⟨-, htwo⟩ := v.step_characters_append (g := g) (o := o) t (String.join (u :: us))
    rw [String.join_cons]
    exact (ih (v.step g o (.characters t)).2 u).trans htwo.2

/-! ## Reports -/

/-- The reports among replies, apart from texts that are not allowed. -/
def reports (replies : List Reply) : List (Except Failure Report) :=
  replies.filterMap fun r => r.answer.report?.map (·.map Report.withoutTexts)

theorem reports_append (rs rs' : List Reply) : reports (rs ++ rs') = reports rs ++ reports rs' :=
  List.filterMap_append

theorem reports_cons_congr {r r' : Reply} {rs rs' : List Reply}
    (h : r.answer.report?.map (·.map Report.withoutTexts) =
      r'.answer.report?.map (·.map Report.withoutTexts)) (h' : reports rs = reports rs') :
    reports (r :: rs) = reports (r' :: rs') := by
  unfold reports at h' ⊢
  rw [List.filterMap_cons, List.filterMap_cons, h, h']

/-- Text brings no report. -/
theorem reports_serve_pieces (v : Validation) (ts : List String) :
    reports (v.serve g o (pieceRequests ts)).1 = [] := by
  induction ts generalizing v with
  | nil => rfl
  | cons t ts ih => exact ih _

theorem SameButTexts.respond (h : SameButTexts v w) (r : Request) :
    (v.respond g o r).1.report?.map (·.map Report.withoutTexts) =
        (w.respond g o r).1.report?.map (·.map Report.withoutTexts) ∧
      SameButTexts (v.respond g o r).2 (w.respond g o r).2 := by
  cases r with
  | start => exact ⟨rfl, rfl, congrArg PooledKeys.clear h.keys, rfl, rfl⟩
  | event e => exact ⟨rfl, (h.step e).2⟩
  | finish =>
    obtain ⟨hreport, hnext⟩ := h.finish (g := g) (o := o)
    exact ⟨congrArg some hreport, hnext⟩

theorem SameButTexts.serve (h : SameButTexts v w) (rs : List Request) :
    reports (v.serve g o rs).1 = reports (w.serve g o rs).1 := by
  induction rs generalizing v w with
  | nil => rfl
  | cons r rs ih =>
    obtain ⟨hreport, hnext⟩ := h.respond (g := g) (o := o) r
    exact reports_cons_congr hreport (ih hnext)

/-- **Text may arrive in pieces.** If a text is given to a validation in pieces, one at least, then
all reports that follow are those that would follow the undivided text, but for which texts they
show as not allowed; and so is the report of a document, which there is if no event fails. -/
theorem reports_pieces (g : Grammar) (o : ValidationOptions) (v : Validation) (t : String)
    (ts : List String) :
    (∀ before after : List Request,
      reports (v.serve g o (before ++ (pieceRequests (t :: ts) ++ after))).1 =
        reports (v.serve g o
          (before ++ .event (.characters (String.join (t :: ts))) :: after)).1) ∧
    ∀ before after : List Event,
      (v.validate g o (before ++ ((t :: ts).map .characters ++ after))).1.map
          Report.withoutTexts =
        (v.validate g o (before ++ .characters (String.join (t :: ts)) :: after)).1.map
          Report.withoutTexts := by
  constructor
  · intro before after
    simp only [serve_append, reports_append, reports_serve_pieces, List.nil_append]
    refine congrArg (_ ++ ·) ?_
    exact (serve_pieces _ t ts).serve after
  · intro before after
    rw [validate_eq_conclude, validate_eq_conclude, run_append, run_append]
    refine Alike.conclude (R := SameButTexts) (fun h => h.finish.1) ?_
    rcases v.restart.run g o before with ⟨f | ⟨⟩, next⟩
    · exact ⟨rfl, .refl _⟩
    · change Alike _ (next.run g o _) (next.run g o _)
      rw [run_append, run_cons_eq]
      exact (next.alike_pieces t ts).proceed (fun h e => h.step e) after

end Validation

end MarkupGrammar
