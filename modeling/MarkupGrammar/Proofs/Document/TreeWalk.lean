import MarkupGrammar.Document.TreeWalk
import MarkupGrammar.Proofs.Document.Failing

/-! # Walks and recursion

A walk with a stack makes the calls of the recursion over the tree: those for the events of the
nodes in document order, where text outside of elements is left out (`validateTree_eq_run`). This
holds of every receiver whose depth is the number of open elements (`Nests`), and so of a validation
and of one whose requests are recorded. The requests of a walk are those of the document up to the
first one that fails (`requests_of_validateTree`). -/

namespace MarkupGrammar

namespace Node

/-- Whether the node is an element. -/
def isElement : Node → Bool
  | element _ _ _ => true
  | text _ | aside => false

/-- The events of a document, given as its nodes. Text outside of elements has none. -/
def documentEvents (ns : List Node) : List Event := childEvents (ns.filter isElement)

/-- The requests for a document, given as its nodes. -/
def documentRequests (ns : List Node) : List Request :=
  .start :: ((documentEvents ns).map .event ++ [.finish])

example : documentRequests
    [.text " ", .element (.unqualified "a") [] [.text "x", .aside], .text "y"] =
      [.start, .event (.start (.unqualified "a") []), .event (.characters "x"),
        .event (.stop (.unqualified "a")), .finish] := by
  decide

end Node

namespace Receiver

variable {σ ρ α : Type} {r : Receiver σ ρ} {s t : σ} {name : Name} {as : List Attribute}

open Node

/-! ## Events in order -/

theorem after_after {β : Type} (x : Except Failure Unit × σ) (k : σ → Except Failure Unit × σ)
    (k' : σ → Except Failure β × σ) : after (after x k) k' = after x fun s => after (k s) k' := by
  rcases x with ⟨_ | ⟨⟩, s⟩ <;> rfl

theorem after_pure (x : Except Failure Unit × σ) : (after x fun s => (.ok (), s)) = x := by
  rcases x with ⟨_ | ⟨⟩, s⟩ <;> rfl

/-- What comes after a call makes a difference only where the call has not failed. -/
theorem after_congr {x : Except Failure Unit × σ} {k k' : σ → Except Failure α × σ}
    (h : ∀ s, x = (.ok (), s) → k s = k' s) : after x k = after x k' := by
  rcases x with ⟨_ | ⟨⟩, s⟩
  · rfl
  · exact h s rfl

/-- Calls the receiver for events up to the first call that fails. -/
def run (r : Receiver σ ρ) (s : σ) : List Event → Except Failure Unit × σ
  | [] => (.ok (), s)
  | e :: es => after (r.step s e) fun s => r.run s es

theorem run_singleton (s : σ) (e : Event) : r.run s [e] = r.step s e := by
  rw [run]
  exact after_pure _

theorem run_append (s : σ) (es es' : List Event) :
    r.run s (es ++ es') = after (r.run s es) fun s => r.run s es' := by
  induction es generalizing s with
  | nil => rfl
  | cons e es ih =>
    rw [List.cons_append, run, run, after_after]
    exact after_congr fun s _ => ih s

/-! ## Depths -/

/-- The depth is the number of elements that have been opened and not closed. -/
structure Nests (r : Receiver σ ρ) : Prop where
  start (s : σ) : r.depth (r.start s) = 0
  opened {s t : σ} {name : Name} {as : List Attribute}
    (h : r.step s (.start name as) = (.ok (), t)) : r.depth t = r.depth s + 1
  characters {s t : σ} {x : String} (h : r.step s (.characters x) = (.ok (), t)) :
    r.depth t = r.depth s
  closed {s t : σ} {name : Name} (h : r.step s (.stop name) = (.ok (), t)) :
    r.depth s = r.depth t + 1

theorem of_after_eq_ok {x : Except Failure Unit × σ} {k : σ → Except Failure Unit × σ}
    (h : after x k = (.ok (), t)) : ∃ s, x = (.ok (), s) ∧ k s = (.ok (), t) := by
  rcases x with ⟨f | ⟨⟩, s⟩
  · exact nomatch (Prod.mk.inj h).1
  · exact ⟨s, rfl, h⟩

mutual
/-- The events of a node close what they open. -/
theorem Nests.depth_run_events (hr : r.Nests) : ∀ (n : Node) {s t : σ},
    r.run s n.events = (.ok (), t) → r.depth t = r.depth s
  | .element name as children, s, t, h => by
    rw [events, run] at h
    obtain ⟨s₁, hopen, h⟩ := of_after_eq_ok h
    rw [run_append] at h
    obtain ⟨s₂, hchildren, h⟩ := of_after_eq_ok h
    rw [run_singleton] at h
    have hopened := hr.opened hopen
    have hsame := hr.depth_run_childEvents children hchildren
    have hclosed := hr.closed h
    omega
  | .text x, s, t, h => by
    rw [events, run_singleton] at h
    exact hr.characters h
  | .aside, s, t, h => by
    obtain rfl := (Prod.mk.inj h).2
    rfl

theorem Nests.depth_run_childEvents (hr : r.Nests) : ∀ (ns : List Node) {s t : σ},
    r.run s (childEvents ns) = (.ok (), t) → r.depth t = r.depth s
  | [], s, t, h => by
    obtain rfl := (Prod.mk.inj h).2
    rfl
  | n :: ns, s, t, h => by
    rw [childEvents, run_append] at h
    obtain ⟨s₁, hn, h⟩ := of_after_eq_ok h
    rw [hr.depth_run_childEvents ns h, hr.depth_run_events n hn]
end

/-! ## Walks -/

theorem walk_closing {children : List Node} {stack : List Visit} :
    r.walk s ((.element name as children, true) :: stack) =
      after (r.step s (.stop name)) fun s => r.walk s stack := by
  rw [walk, if_pos rfl]

theorem walk_opening {children : List Node} {stack : List Visit} :
    r.walk s ((.element name as children, false) :: stack) =
      after (r.step s (.start name as)) fun s =>
        r.walk s (withNodes children ((.element name as children, true) :: stack)) := by
  rw [walk, if_neg Bool.false_ne_true]

mutual
/-- A node on top of the stack is walked over by the calls for its events, if it is an element or
inside of one. -/
theorem Nests.walk_node (hr : r.Nests) : ∀ (n : Node) {s : σ} {stack : List Visit},
    0 < r.depth s ∨ n.isElement → r.walk s ((n, false) :: stack) =
      after (r.run s n.events) fun s => r.walk s stack
  | .element name as children, s, stack, _ => by
    rw [walk_opening, events, run, after_after]
    refine after_congr fun s₁ hopen => ?_
    have hpos : 0 < r.depth s₁ := by
      rw [hr.opened hopen]
      exact Nat.succ_pos _
    rw [hr.walk_withNodes children hpos, run_append, after_after]
    refine after_congr fun s₂ _ => ?_
    rw [walk_closing, run_singleton]
  | .text x, s, stack, hpos => by
    rw [walk, if_pos (hpos.resolve_right Bool.false_ne_true), events, run_singleton]
  | .aside, s, stack, _ => by
    rw [walk]
    rfl

/-- Inside of an element, nodes on top of the stack are walked over by the calls for their
events. -/
theorem Nests.walk_withNodes (hr : r.Nests) : ∀ (ns : List Node) {s : σ} {stack : List Visit},
    0 < r.depth s → r.walk s (withNodes ns stack) =
      after (r.run s (childEvents ns)) fun s => r.walk s stack
  | [], s, stack, _ => rfl
  | n :: ns, s, stack, hpos => by
    change r.walk s ((n, false) :: withNodes ns stack) = _
    rw [hr.walk_node n (.inl hpos), childEvents, run_append, after_after]
    refine after_congr fun s₁ hrun => hr.walk_withNodes ns ?_
    rwa [hr.depth_run_events n hrun]
end

/-- Outside of elements, the calls are those for the events of the elements. -/
theorem Nests.walk_document (hr : r.Nests) (hzero : r.depth s = 0) (ns : List Node) :
    r.walk s (withNodes ns []) = r.run s (documentEvents ns) := by
  induction ns generalizing s with
  | nil => rw [withNodes, List.map_nil, List.nil_append, walk]; rfl
  | cons n ns ih =>
    change r.walk s ((n, false) :: withNodes ns []) = _
    cases n with
    | element name as children =>
      have hevents : documentEvents (.element name as children :: ns) =
          (Node.element name as children).events ++ documentEvents ns := rfl
      rw [hr.walk_node _ (.inr rfl), hevents, run_append]
      refine after_congr fun s₁ hrun => ih ?_
      rw [hr.depth_run_events _ hrun, hzero]
    | text x =>
      rw [walk, if_neg (by omega), ih hzero]
      rfl
    | aside =>
      rw [walk, ih hzero]
      rfl

/-- **A walk makes the calls for the events of the document in order.** -/
theorem Nests.validateTree_eq_run (hr : r.Nests) (s : σ) (ns : List Node) :
    r.validateTree s ns = after (r.run (r.start s) (documentEvents ns)) r.finish := by
  rw [validateTree, hr.walk_document (hr.start s)]

/-! ## Recorded requests -/

/-- The receiver with a record of the requests made. -/
def recording (r : Receiver σ ρ) : Receiver (σ × List Request) ρ where
  start s := (r.start s.1, s.2 ++ [.start])
  step s e := ((r.step s.1 e).1, (r.step s.1 e).2, s.2 ++ [.event e])
  finish s := ((r.finish s.1).1, (r.finish s.1).2, s.2 ++ [.finish])
  depth s := r.depth s.1

theorem Nests.recording (hr : r.Nests) : r.recording.Nests where
  start s := hr.start s.1
  opened h := by
    obtain ⟨h₁, h₂⟩ := Prod.mk.inj h
    exact hr.opened (Prod.ext h₁ (congrArg Prod.fst h₂))
  characters h := by
    obtain ⟨h₁, h₂⟩ := Prod.mk.inj h
    exact hr.characters (Prod.ext h₁ (congrArg Prod.fst h₂))
  closed h := by
    obtain ⟨h₁, h₂⟩ := Prod.mk.inj h
    exact hr.closed (Prod.ext h₁ (congrArg Prod.fst h₂))

end Receiver

namespace Validation

variable {g : Grammar} {o : ValidationOptions} {v w : Validation}

open Node Receiver

/-- How many elements are open after an event. -/
theorem depth_of_step (e : Event) (h : v.step g o e = (.ok (), w)) :
    match e with
    | .start _ _ => w.depth = v.depth + 1
    | .characters _ => w.depth = v.depth
    | .stop _ => v.depth = w.depth + 1 := by
  rw [step_eq] at h
  rcases hp : passage g o v.walk e with ⟨f | p, next⟩ <;> rw [hp] at h
  · exact nomatch (Prod.mk.inj h).1
  obtain rfl := (Prod.mk.inj h).2
  rcases passage_cases hp with ⟨_, _, s, rfl, hs, -, rfl⟩ | ⟨_, _, rfl, hs, -⟩ | ⟨_, _, rfl, hs, -⟩
  · exact ContentWalk.depth_of_start hs
  · exact ContentWalk.depth_of_characters hs
  · have hnames := congrArg List.length (ContentWalk.openNames_of_stop hs)
    rwa [List.length_cons, ContentWalk.length_openNames, ContentWalk.length_openNames] at hnames

/-- The depth of a validation is the number of elements that have been opened and not closed. -/
theorem nests_receiver (g : Grammar) (o : ValidationOptions) : (receiver g o).Nests where
  start _ := rfl
  opened h := depth_of_step (.start _ _) h
  characters h := depth_of_step (.characters _) h
  closed h := depth_of_step (.stop _) h

/-! ## Trees and streams -/

theorem run_cons_eq_after (v : Validation) (e : Event) (es : List Event) :
    v.run g o (e :: es) = after (v.step g o e) fun v => v.run g o es := by
  rw [run_cons_eq]
  rcases v.step g o e with ⟨f | ⟨⟩, next⟩ <;> rfl

theorem run_receiver (v : Validation) (es : List Event) :
    (receiver g o).run v es = v.run g o es := by
  induction es generalizing v with
  | nil => rfl
  | cons e es ih =>
    rw [Receiver.run, run_cons_eq_after]
    exact after_congr fun next _ => ih next

/-- **A walk over a document tree does what following its events does.** -/
theorem validateTree_receiver (v : Validation) (ns : List Node) :
    (receiver g o).validateTree v ns = v.validate g o (documentEvents ns) := by
  rw [(nests_receiver g o).validateTree_eq_run, run_receiver, validate_eq_conclude]
  change after (v.restart.run g o _) (Validation.finish g o) = _
  rcases v.restart.run g o (documentEvents ns) with ⟨f | ⟨⟩, next⟩ <;> rfl

/-! ## Recursion -/

theorem depth_run_events (n : Node) (h : v.run g o n.events = (.ok (), w)) : w.depth = v.depth :=
  (nests_receiver g o).depth_run_events n ((run_receiver v n.events).trans h)

theorem follow_element (v : Validation) (name : Name) (as : List Attribute) (children : List Node) :
    v.follow g o (.element name as children) = after (v.step g o (.start name as)) fun v =>
      after (v.followAll g o children) fun v => v.step g o (.stop name) := by
  rw [follow]
  rcases v.step g o (.start name as) with ⟨f | ⟨⟩, v₁⟩
  · rfl
  · change _ = after (v₁.followAll g o children) _
    dsimp only
    rcases v₁.followAll g o children with ⟨f | ⟨⟩, v₂⟩ <;> rfl

theorem followAll_cons (v : Validation) (n : Node) (ns : List Node) :
    v.followAll g o (n :: ns) = after (v.follow g o n) fun v => v.followAll g o ns := by
  rw [followAll]
  rcases v.follow g o n with ⟨f | ⟨⟩, v₁⟩ <;> rfl

theorem run_append_eq_after (v : Validation) (es es' : List Event) :
    v.run g o (es ++ es') = after (v.run g o es) fun v => v.run g o es' := by
  simp only [← run_receiver]
  exact Receiver.run_append v es es'

mutual
/-- A node is followed by following its events, if it is an element or inside of one. -/
theorem follow_eq_run : ∀ (n : Node) {v : Validation}, 0 < v.depth ∨ n.isElement →
    v.follow g o n = v.run g o n.events
  | .element name as children, v, _ => by
    rw [follow_element, events, run_cons_eq_after]
    refine after_congr fun v₁ hopen => ?_
    have hpos : 0 < v₁.depth := by
      rw [depth_of_step _ hopen]
      exact Nat.succ_pos _
    rw [followAll_eq_run children hpos, run_append_eq_after]
    exact after_congr fun v₂ _ => (run_singleton v₂ _).symm
  | .text x, v, hpos => by
    have hne : v.depth ≠ 0 := (hpos.resolve_right Bool.false_ne_true).ne'
    rw [follow, if_neg hne, events, run_singleton]
  | .aside, v, _ => by
    rw [follow]
    rfl

/-- Inside of an element, nodes are followed by following their events. -/
theorem followAll_eq_run : ∀ (ns : List Node) {v : Validation}, 0 < v.depth →
    v.followAll g o ns = v.run g o (childEvents ns)
  | [], v, _ => by
    rw [followAll]
    rfl
  | n :: ns, v, hpos => by
    rw [followAll_cons, follow_eq_run n (.inl hpos), childEvents, run_append_eq_after]
    refine after_congr fun v₁ hrun => followAll_eq_run ns ?_
    rwa [depth_run_events n hrun]
end

theorem followAll_document (hzero : v.depth = 0) (ns : List Node) :
    v.followAll g o ns = v.run g o (documentEvents ns) := by
  induction ns generalizing v with
  | nil => rw [followAll]; rfl
  | cons n ns ih =>
    rw [followAll_cons]
    cases n with
    | element name as children =>
      have hevents : documentEvents (.element name as children :: ns) =
          (Node.element name as children).events ++ documentEvents ns := rfl
      rw [follow_eq_run _ (.inr rfl), hevents, run_append_eq_after]
      refine after_congr fun v₁ hrun => ih ?_
      rw [depth_run_events _ hrun, hzero]
    | text x =>
      rw [follow, if_pos hzero]
      exact ih hzero
    | aside =>
      rw [follow]
      exact ih hzero

/-- **A walk does what following the tree node by node does.** -/
theorem validateTree_receiver_eq (v : Validation) (ns : List Node) :
    (receiver g o).validateTree v ns = v.validateTree g o ns := by
  rw [validateTree_receiver, validate, validateTree, followAll_document rfl]

/-! ## Requests -/

/-- The requests up to the first one that fails. -/
def untilFailure (g : Grammar) (o : ValidationOptions) (v : Validation) :
    List Request → List Request
  | [] => []
  | q :: qs =>
    let (answer, next) := v.respond g o q
    q :: if answer.failure?.isSome then [] else next.untilFailure g o qs

theorem untilFailure_event (v : Validation) (e : Event) (qs : List Request) :
    v.untilFailure g o (.event e :: qs) = .event e ::
      match v.step g o e with
      | (.ok (), next) => next.untilFailure g o qs
      | (.error _, _) => [] := by
  rw [untilFailure, respond_event]
  rcases v.step g o e with ⟨f | ⟨⟩, next⟩ <;> rfl

theorem untilFailure_finish (v : Validation) : v.untilFailure g o [.finish] = [.finish] := by
  rw [untilFailure]
  simp [untilFailure]

/-- Events that are followed until one fails, and then the end of the document, are recorded up to
the first failure. -/
theorem recording_run (v : Validation) (before : List Request) (es : List Event) :
    after ((receiver g o).recording.run (v, before) es) (receiver g o).recording.finish =
      ((conclude g o (v.run g o es)).1, (conclude g o (v.run g o es)).2,
        before ++ v.untilFailure g o (es.map .event ++ [.finish])) := by
  induction es generalizing v before with
  | nil =>
    rw [List.map_nil, List.nil_append, untilFailure_finish]
    rfl
  | cons e es ih =>
    rw [Receiver.run, run_cons_eq, List.map_cons, List.cons_append, untilFailure_event, after_after]
    change after ((v.step g o e).1, (v.step g o e).2, before ++ [Request.event e]) _ = _
    rcases v.step g o e with ⟨f | ⟨⟩, next⟩
    · rfl
    · refine (ih next (before ++ [.event e])).trans ?_
      rw [List.append_assoc]
      rfl

/-- The requests up to a failure lead to where the events up to it lead. -/
theorem serve_untilFailure (v : Validation) (es : List Event) :
    (v.serve g o (v.untilFailure g o (es.map .event ++ [.finish]))).2 =
      (conclude g o (v.run g o es)).2 := by
  induction es generalizing v with
  | nil =>
    rw [List.map_nil, List.nil_append, untilFailure_finish]
    rfl
  | cons e es ih =>
    rw [run_cons_eq, List.map_cons, List.cons_append, untilFailure_event, serve, respond_event]
    rcases v.step g o e with ⟨f | ⟨⟩, next⟩
    · rfl
    · exact ih next

/-- **A walk over a document tree makes the requests of the document in order, up to the first that
fails.** A record of them makes no difference, and serving them leads to the same validation. -/
theorem requests_of_validateTree (g : Grammar) (o : ValidationOptions) (v : Validation)
    (ns : List Node) :
    (receiver g o).recording.validateTree (v, []) ns =
        (((receiver g o).validateTree v ns).1, ((receiver g o).validateTree v ns).2,
          v.untilFailure g o (documentRequests ns)) ∧
      (v.serve g o (v.untilFailure g o (documentRequests ns))).2 =
        ((receiver g o).validateTree v ns).2 := by
  have hfirst : v.untilFailure g o (documentRequests ns) =
      .start :: v.restart.untilFailure g o ((documentEvents ns).map .event ++ [.finish]) := rfl
  rw [validateTree_receiver, validate_eq_conclude, hfirst]
  refine ⟨?_, serve_untilFailure v.restart (documentEvents ns)⟩
  rw [(nests_receiver g o).recording.validateTree_eq_run]
  exact recording_run v.restart [.start] (documentEvents ns)

end Validation

end MarkupGrammar
