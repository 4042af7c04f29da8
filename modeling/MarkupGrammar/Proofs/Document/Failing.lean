import MarkupGrammar.Proofs.Document.Nesting
import MarkupGrammar.Proofs.Document.Safety

/-! # Requests that fail

A request that fails leaves the validation as it was, but for one: an end tag with another name than
the innermost open element closes that element for the walk, and for nothing else
(`Validation.WellFormed.respond_of_failure`). So the identity constraints are deeper in the document
than the walk, by the number of such end tags since the document began
(`Validation.WellFormed.depth_serve`). -/

namespace MarkupGrammar

variable {g : Grammar} {o : ValidationOptions} {v : Validation} {w next : ContentWalk}
  {f : Failure}

/-! ## The depth of the identity constraints -/

namespace Keys

theorem depth_closeSelection (k : Keys) (s : Selection) :
    (k.closeSelection s).1.depth = k.depth := by
  unfold closeSelection closeComplete
  dsimp only
  split
  · split
    · rfl
    · split
      · rfl
      · rfl
      · split <;> rfl
  · split <;> rfl

theorem depth_closeSelections (k : Keys) (ss : List Selection) :
    (k.closeSelections ss).1.depth = k.depth := by
  induction ss generalizing k with
  | nil => rfl
  | cons s ss ih => exact (ih _).trans (k.depth_closeSelection s)

theorem depth_stop (k : Keys) : (k.stop g).1.depth = k.depth - 1 := by
  by_cases hk : k.depth = 0
  · unfold stop
    rw [if_pos hk, hk]
  · rw [stop_of_depth_ne_zero g hk]
    exact congrArg (· - 1) (depth_closeLedger.trans (depth_closeSelections _ _))

end Keys

/-! ## Failures -/

/-- An end tag where nothing is open, one with another name than the innermost open element, and one
that ends that element. -/
theorem ContentWalk.WellFormed.stop_cases (hw : w.WellFormed g) (ctx : ValueContext) (name : Name) :
    w.stop g ctx name = (.error (.markup (.unopened name)), w) ∨
      ∃ e rest, w.opened = e :: rest ∧
        (e.name ≠ name ∧
            w.stop g ctx name = (.error (.markup (.mismatched name e.name)), ⟨rest⟩) ∨
          ∃ vs, w.stop g ctx name = (.ok vs, ⟨rest⟩)) := by
  obtain ⟨opened⟩ := w
  cases opened with
  | nil => exact .inl rfl
  | cons e rest =>
    obtain ⟨he, -⟩ := List.forall_mem_cons.mp hw
    refine .inr ⟨e, rest, rfl, ?_⟩
    unfold ContentWalk.stop close
    dsimp only
    by_cases hname : e.name ≠ name
    · rw [if_pos hname]
      exact .inl ⟨hname, rfl⟩
    · rw [if_neg hname]
      refine .inr ?_
      cases hm : e.mode with
      | lax => exact ⟨_, rfl⟩
      | skip => exact ⟨_, rfl⟩
      | declared i =>
        rw [hm] at he
        obtain ⟨d, hd, -⟩ := he
        dsimp only
        rw [declaration_eq_ok hd]
        exact ⟨_, rfl⟩

namespace Validation

/-- An event that fails leaves the walk where it was, or it is an end tag with another name than the
innermost open element, and the walk has left that element. -/
theorem passage_of_failure (hw : w.WellFormed g) (hg : g.WellFormed) (hclosed : g.Closed)
    {event : Event} (h : passage g o w event = (.error f, next)) :
    (next = w ∧ ∀ name opened, f ≠ .markup (.mismatched name opened)) ∨
      ∃ name e rest, event = .stop name ∧ w.opened = e :: rest ∧ e.name ≠ name ∧
        f = .markup (.mismatched name e.name) ∧ next = ⟨rest⟩ := by
  unfold passage at h
  cases event with
  | start name as =>
    dsimp only at h
    rcases hw.start hg hclosed o.limits o.checksRoot name with ⟨n, hs⟩ | ⟨s, hs, -⟩
    · rw [hs] at h
      obtain ⟨hf, rfl⟩ := Prod.mk.inj h
      obtain rfl := Except.error.inj hf
      exact .inl ⟨rfl, nofun⟩
    · rw [hs] at h
      exact nomatch (Prod.mk.inj h).1
  | characters s =>
    obtain ⟨w', reported, hs, -⟩ := hw.characters s
    dsimp only at h
    rw [hs] at h
    exact nomatch (Prod.mk.inj h).1
  | stop name =>
    dsimp only at h
    rcases hw.stop_cases o.context name with hs | ⟨e, rest, hopened, ⟨hname, hs⟩ | ⟨vs, hs⟩⟩
    · rw [hs] at h
      obtain ⟨hf, rfl⟩ := Prod.mk.inj h
      obtain rfl := Except.error.inj hf
      exact .inl ⟨rfl, nofun⟩
    · rw [hs] at h
      obtain ⟨hf, rfl⟩ := Prod.mk.inj h
      obtain rfl := Except.error.inj hf
      exact .inr ⟨name, e, rest, rfl, hopened, hname, rfl, rfl⟩
    · rw [hs] at h
      exact nomatch (Prod.mk.inj h).1

/-- **A request that fails** leaves the validation as it was, or it is an end tag with another name
than the innermost open element, and the walk has left that element. -/
theorem WellFormed.respond_of_failure (h : v.WellFormed g) (hg : g.WellFormed) (hclosed : g.Closed)
    {r : Request} (hf : (v.respond g o r).1.failure? = some f) :
    ((v.respond g o r).2 = v ∧ ∀ name opened, f ≠ .markup (.mismatched name opened)) ∨
      ∃ name e rest, r = .event (.stop name) ∧ v.walk.opened = e :: rest ∧ e.name ≠ name ∧
        f = .markup (.mismatched name e.name) ∧
        (v.respond g o r).2 = { v with walk := ⟨rest⟩ } := by
  cases r with
  | start => exact nomatch hf
  | event e =>
    rw [respond_event, step_eq] at hf ⊢
    rcases hp : passage g o v.walk e with ⟨f' | p, next⟩
    · rw [hp] at hf
      obtain rfl := Option.some.inj hf
      rcases passage_of_failure h.walk hg hclosed hp with
        ⟨rfl, hother⟩ | ⟨name, e, rest, rfl, hopened, hname, rfl, rfl⟩
      · exact .inl ⟨rfl, hother⟩
      · exact .inr ⟨name, e, rest, rfl, hopened, hname, rfl, rfl⟩
    · rw [hp] at hf
      exact nomatch hf
  | finish =>
    rw [respond_finish] at hf ⊢
    unfold Validation.finish at hf ⊢
    by_cases hdepth : v.depth > 0
    · rw [if_pos hdepth] at hf ⊢
      obtain rfl := Option.some.inj hf
      exact .inl ⟨rfl, nofun⟩
    · rw [if_neg hdepth] at hf
      exact nomatch hf

/-! ## The depth of the walk -/

/-- The number of end tags that have closed an element for the walk alone, after an answer. -/
def misclosed (n : Nat) : Answer → Nat
  | .started => 0
  | .outcome (.error (.markup (.mismatched _ _))) => n + 1
  | .outcome _ | .report _ => n

theorem misclosed_of_failure {n : Nat} {a : Answer} (hf : a.failure? = some f)
    (hother : ∀ name opened, f ≠ .markup (.mismatched name opened)) : misclosed n a = n := by
  unfold misclosed
  split
  · exact nomatch hf
  · obtain rfl := Option.some.inj hf
    exact absurd rfl (hother _ _)
  · rfl
  · rfl

theorem depth_startKeys (ho : o.checksConstraints = true) (k : PooledKeys) (e : Placed)
    (attributes : List TypedAttribute) :
    (startKeys g o k e attributes).1.keys.depth = k.keys.depth + 1 := by
  unfold startKeys
  rw [if_pos ho]
  rfl

theorem depth_stopKeys (ho : o.checksConstraints = true) (k : PooledKeys) :
    (stopKeys g o k).1.keys.depth = k.keys.depth - 1 := by
  unfold stopKeys
  rw [if_pos ho]
  exact k.keys.depth_stop

/-- A passage changes the depth of the identity constraints as its event changes that of the
walk. -/
theorem depth_pass (ho : o.checksConstraints = true) {event : Event} {p : Passage}
    (hp : passage g o v.walk event = (.ok p, next)) {n : Nat}
    (h : v.keys.keys.depth = v.walk.depth + n) :
    (v.pass g o p).keys.keys.depth = next.depth + n := by
  rcases passage_cases hp with
    ⟨name, as, s, -, hs, rfl, rfl⟩ | ⟨s, reported, -, hs, rfl⟩ | ⟨name, reported, -, hs, rfl⟩
  · have hdepth := ContentWalk.depth_of_start hs
    change (startKeys g o v.keys _ _).1.keys.depth = _
    rw [depth_startKeys ho, hdepth, h]
    omega
  · have hdepth : next.depth = v.walk.depth := ContentWalk.depth_of_characters hs
    unfold pass
    dsimp only
    rw [if_pos ho, hdepth, ← h]
    rfl
  · have hdepth : v.walk.depth = next.depth + 1 := by
      have hnames := congrArg List.length (ContentWalk.openNames_of_stop hs)
      rwa [List.length_cons, ContentWalk.length_openNames, ContentWalk.length_openNames] at hnames
    change (stopKeys g o v.keys).1.keys.depth = _
    rw [depth_stopKeys ho, h, hdepth]
    omega

/-- **A request** that succeeds keeps the walk and the identity constraints as far apart as they
were; an end tag with another name takes them apart. -/
theorem WellFormed.depth_respond (h : v.WellFormed g) (hg : g.WellFormed) (hclosed : g.Closed)
    (ho : o.checksConstraints = true) {n : Nat} (hn : v.keys.keys.depth = v.depth + n)
    (r : Request) :
    (v.respond g o r).2.keys.keys.depth =
      (v.respond g o r).2.depth + misclosed n (v.respond g o r).1 := by
  cases r with
  | start => rfl
  | event e =>
    rw [respond_event, step_eq]
    rcases hp : passage g o v.walk e with ⟨f | p, next⟩
    · rcases passage_of_failure h.walk hg hclosed hp with
        ⟨rfl, hother⟩ | ⟨name, e, rest, rfl, hopened, -, rfl, rfl⟩
      · change v.keys.keys.depth = v.depth + misclosed n (.outcome (.error f))
        rw [misclosed_of_failure rfl hother, hn]
      · have hdepth : v.depth = rest.length + 1 := congrArg List.length hopened
        change v.keys.keys.depth = rest.length + (n + 1)
        omega
    · exact depth_pass ho hp hn
  | finish =>
    rw [respond_finish]
    unfold Validation.finish
    split
    · exact hn
    · exact hn

/-- The number of end tags that have closed an element for the walk alone since the document
began. -/
def misclosedBy (replies : List Reply) : Nat := replies.foldl (fun n r => misclosed n r.answer) 0

theorem WellFormed.depth_serve (h : v.WellFormed g) (hg : g.WellFormed) (hclosed : g.Closed)
    (ho : o.checksConstraints = true) {n : Nat} (hn : v.keys.keys.depth = v.depth + n)
    (rs : List Request) :
    (v.serve g o rs).2.keys.keys.depth =
      (v.serve g o rs).2.depth + (v.serve g o rs).1.foldl (fun n r => misclosed n r.answer) n := by
  induction rs generalizing v n with
  | nil => exact hn
  | cons r rs ih =>
    exact ih (h.respond hg hclosed r).2 (h.depth_respond hg hclosed ho hn r)

/-- **Failures leave a validation as it was, but for one.** Whatever has been requested before, a
request that fails changes nothing, or it is an end tag with another name than the innermost open
element; then that element is closed for the walk, and nothing else changes. So the identity
constraints, if they are checked, are deeper than the walk by the number of such end tags since the
document began. -/
theorem serve_failures {draft : GrammarDraft} {own : Limits}
    (h : draft.compile own = .ok g) (o : ValidationOptions) (before : List Request) :
    let session := ({} : Validation).serve g o before
    (∀ r f, (session.2.respond g o r).1.failure? = some f →
      ((session.2.respond g o r).2 = session.2 ∧
          ∀ name opened, f ≠ .markup (.mismatched name opened)) ∨
        ∃ name e rest, r = .event (.stop name) ∧ session.2.walk.opened = e :: rest ∧
          e.name ≠ name ∧ f = .markup (.mismatched name e.name) ∧
          (session.2.respond g o r).2 = { session.2 with walk := ⟨rest⟩ }) ∧
    (o.checksConstraints = true →
      session.2.keys.keys.depth = session.2.depth + Validation.misclosedBy session.1) := by
  have hg := GrammarDraft.wellFormed_of_compile h
  have hclosed := GrammarDraft.closed_of_compile h
  have hnew : ({} : Validation).WellFormed g := Validation.wellFormed_empty
  refine ⟨fun r f hf => ?_, fun ho => hnew.depth_serve hg hclosed ho rfl before⟩
  exact (hnew.serve hg hclosed before).2.respond_of_failure hg hclosed hf

/-- A part that is open. -/
def openPart : List Request := [.start, .event (.start (.unqualified "part") [])]

theorem serve_failures_openPart : ∃ g, emptyPart.compile {} = .ok g ∧
    let session := ({} : Validation).serve g {} openPart
    (∃ f, (session.2.respond g {} (.event (.stop (.unqualified "other")))).1.failure? = some f ∧
      ((session.2.respond g {} (.event (.stop (.unqualified "other")))).2 = session.2 ∧
          (∀ name opened, f ≠ .markup (.mismatched name opened)) ∨
        ∃ name e rest, Request.event (.stop (.unqualified "other")) = .event (.stop name) ∧
          session.2.walk.opened = e :: rest ∧ e.name ≠ name ∧
          f = .markup (.mismatched name e.name) ∧
          (session.2.respond g {} (.event (.stop (.unqualified "other")))).2 =
            { session.2 with walk := ⟨rest⟩ })) ∧
    session.2.keys.keys.depth = session.2.depth + Validation.misclosedBy session.1 := by
  have hall : (emptyPart.compile {}).toOption.any (fun g =>
      ((({} : Validation).serve g {} openPart).2.respond g {}
        (.event (.stop (.unqualified "other")))).1.failure?.isSome) := by decide +kernel
  cases h : emptyPart.compile {} with
  | error f => rw [h] at hall; exact nomatch hall
  | ok g =>
    rw [h] at hall
    obtain ⟨hfailures, hdepth⟩ := serve_failures h {} openPart
    obtain ⟨f, hf⟩ := Option.isSome_iff_exists.mp hall
    exact ⟨g, rfl, ⟨f, hf, hfailures _ f hf⟩, hdepth rfl⟩

/-- An end tag that does not match fails and closes the part for the walk all the same: the
validation is not what it was, the identity constraints are left behind, and the document can be
ended with the report of a valid one. -/
theorem exists_failure_changed : ∃ g, emptyPart.compile {} = .ok g ∧
    let v := (({} : Validation).serve g {} openPart).2
    let next := (v.respond g {} (.event (.stop (.unqualified "other")))).2
    (v.respond g {} (.event (.stop (.unqualified "other")))).1.failure? =
        some (.markup (.mismatched (.unqualified "other") (.unqualified "part"))) ∧
      next ≠ v ∧ (v.depth, v.keys.keys.depth) = (1, 1) ∧
      (next.depth, next.keys.keys.depth) = (0, 1) ∧
      (next.finish g {}).1.toOption = some ⟨[]⟩ := by
  have hall : (emptyPart.compile {}).toOption.map (fun g =>
      let v := (({} : Validation).serve g {} openPart).2
      let next := (v.respond g {} (.event (.stop (.unqualified "other")))).2
      ((v.respond g {} (.event (.stop (.unqualified "other")))).1.failure?,
        (v.depth, v.keys.keys.depth), (next.depth, next.keys.keys.depth),
        (next.finish g {}).1.toOption)) =
      some (some (.markup (.mismatched (.unqualified "other") (.unqualified "part"))), (1, 1),
        (0, 1), some ⟨[]⟩) := by decide +kernel
  cases h : emptyPart.compile {} with
  | error f => rw [h] at hall; exact nomatch hall
  | ok g =>
    rw [h] at hall
    obtain ⟨hfailure, hrest⟩ := Prod.mk.inj (Option.some.inj hall)
    obtain ⟨hv, hrest⟩ := Prod.mk.inj hrest
    obtain ⟨hnext, hreport⟩ := Prod.mk.inj hrest
    refine ⟨g, rfl, hfailure, fun hsame => ?_, hv, hnext, hreport⟩
    rw [hsame, hv] at hnext
    exact nomatch hnext

end Validation

end MarkupGrammar
