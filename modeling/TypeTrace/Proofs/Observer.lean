import TypeTrace.Context.Observer
import TypeTrace.Proofs.Context
import TypeTrace.Proofs.Walk

/-! # The visitor that keeps the context

What the two hooks of an observer's visitor do to the context, and what a walk comes to in which the
observer never prunes, stops or replaces: it is shown the calls of the forest in order, each with
the context that the forest alone determines, and the context is settled afterwards.
-/

namespace TypeTrace

/-! ## The calls of a forest -/

structure Call where
  event : Event
  node : Node
  context : TypeContext

namespace Forest

variable (schema : Schema) (lookup : FieldLookup)

/-- The context behind a forest, from the context in front of it. -/
def pass : Forest → TypeContext → TypeContext
  | .nil, c => c
  | .cons _ head children rest, c =>
      rest.pass (c.behind head.kind (children.pass (c.enter schema lookup ⟨head, children⟩)))

/-- The calls of a walk through a forest that nothing prunes, stops or replaces. -/
def calls : Forest → TypeContext → List Call
  | .nil, _ => []
  | .cons _ head children rest, c =>
      let inner := c.enter schema lookup ⟨head, children⟩
      let atEnd := children.pass schema lookup inner
      ⟨.enter, ⟨head, children⟩, inner⟩ :: (children.calls inner ++
        ⟨.leave, ⟨head, children⟩, atEnd⟩ :: rest.calls (c.behind head.kind atEnd))

end Forest

def Node.calls (schema : Schema) (lookup : FieldLookup) (node : Node) (c : TypeContext) :
    List Call :=
  let inner := c.enter schema lookup node
  ⟨.enter, node, inner⟩ :: (node.children.calls schema lookup inner ++
    [⟨.leave, node, node.children.pass schema lookup inner⟩])

namespace Forest

variable {schema : Schema} {lookup : FieldLookup}

theorem settled_pass (forest : Forest) (c : TypeContext) :
    c.Settled (forest.pass schema lookup c) := by
  induction forest generalizing c with
  | nil => exact .refl c
  | cons role head children rest ihchildren ihrest =>
      have hentered := TypeContext.entered schema lookup ⟨head, children⟩ c
      exact (hentered.settled_behind (ihchildren _)).trans (ihrest _)

@[simp] theorem stacked_pass (forest : Forest) (c : TypeContext) :
    (forest.pass schema lookup c).stacked = c.stacked :=
  (forest.settled_pass c).stacked

theorem behind_pass (schema : Schema) (lookup : FieldLookup) (document : Node) :
    TypeContext.empty.behind document.kind (document.children.pass schema lookup
      (TypeContext.empty.enter schema lookup document)) = .empty := by
  have hentered := TypeContext.entered schema lookup document .empty
  exact (hentered.settled_behind (document.children.settled_pass _)).eq_empty

theorem calls_cons (role : Role) (head : Head) (children rest : Forest) (c : TypeContext) :
    calls schema lookup (.cons role head children rest) c =
      Node.calls schema lookup ⟨head, children⟩ c ++ rest.calls schema lookup (c.behind head.kind
        (children.pass schema lookup (c.enter schema lookup ⟨head, children⟩))) := by
  rw [calls, Node.calls, List.cons_append, List.append_assoc]
  rfl

end Forest

namespace Observer

variable {σ : Type} {schema : Schema} {lookup : FieldLookup}

/-! ## The two hooks -/

def answer (observer : Observer σ) (call : Call) (s : σ) : Reply × σ :=
  match call.event with
  | .enter => observer.enter call.node call.context s
  | .leave => observer.leave call.node call.context s

/-- The context behind the entrance of a node, after the observer's answer. -/
def entrance (schema : Schema) (lookup : FieldLookup) (node : Node) (c : TypeContext) :
    Reply → TypeContext
  | .proceed => c.enter schema lookup node
  | .replace other =>
      (c.behind node.kind (c.enter schema lookup node)).enter schema lookup other
  | _ => c.behind node.kind (c.enter schema lookup node)

theorem onContext_ok {change : TypeContext.Change Unit} {c d : TypeContext}
    (h : change c = .ok () d) (s : σ) : onContext change (c, s) = .ok () (d, s) := by
  simp only [onContext, h]

theorem visitor_enter {observer : Observer σ} {node : Node} {c : TypeContext} {s s' : σ}
    {reply : Reply}
    (hreply : observer.answer ⟨.enter, node, c.enter schema lookup node⟩ s = (reply, s')) :
    (observer.visitor schema lookup).enter node (c, s) =
      .ok reply (entrance schema lookup node c reply, s') := by
  have hask : ask observer.enter node (c.enter schema lookup node, s) =
      .ok reply (c.enter schema lookup node, s') := by
    change observer.enter node _ s = _ at hreply
    simp only [ask, hreply]
  have hentered := TypeContext.entered schema lookup node c
  have hleave := onContext_ok (TypeContext.leave_of_entered hentered rfl) s'
  have hmodify : onContext (modify (TypeContext.enter schema lookup node)) (c, s) =
      .ok () (c.enter schema lookup node, s) := rfl
  unfold visitor
  dsimp only
  rw [Stateful.bind_ok hmodify, Stateful.bind_ok hask]
  cases reply with
  | proceed => rfl
  | replace other =>
      dsimp only
      rw [Stateful.bind_ok hleave]
      rfl
  | _ =>
      dsimp only
      rw [Stateful.bind_ok hleave]
      rfl

/-- At the end of a node the observer answers and the context leaves the node, if it can. -/
theorem visitor_leave_eq (observer : Observer σ) (schema : Schema) (lookup : FieldLookup)
    (node : Node) (c : TypeContext) (s : σ) :
    (observer.visitor schema lookup).leave node (c, s) =
      match TypeContext.leave node.kind c with
      | .ok _ d => .ok (observer.leave node c s).1 (d, (observer.leave node c s).2)
      | .error fault d => .error fault (d, (observer.leave node c s).2) := by
  have hask : ask observer.leave node (c, s) =
      .ok (observer.leave node c s).1 (c, (observer.leave node c s).2) := rfl
  unfold visitor
  dsimp only
  rw [Stateful.bind_ok hask]
  change EStateM.bind (onContext _) _ _ = _
  unfold EStateM.bind onContext
  dsimp only
  cases TypeContext.leave node.kind c <;> rfl

/-- At the end of a node the stacks hold enough if they stand as they did behind an entrance. -/
theorem visitor_leave {observer : Observer σ} (schema : Schema) (lookup : FieldLookup) (node : Node)
    {before inner atEnd : TypeContext} {s s' : σ} {reply : Reply}
    (hentered : before.Entered node.kind inner)
    (hstacks : atEnd.stacked = inner.stacked)
    (hreply : observer.answer ⟨.leave, node, atEnd⟩ s = (reply, s')) :
    (observer.visitor schema lookup).leave node (atEnd, s) =
      .ok reply (before.behind node.kind atEnd, s') := by
  change observer.leave node atEnd s = _ at hreply
  rw [visitor_leave_eq, TypeContext.leave_of_entered hentered hstacks, hreply]

/-! ## Walks without edits -/

def after (observer : Observer σ) (calls : List Call) (s : σ) : σ :=
  calls.foldl (fun s call => (observer.answer call s).2) s

/-- The observer answers to each of some calls that the walk may proceed. -/
def Quiet (observer : Observer σ) : List Call → σ → Prop
  | [], _ => True
  | call :: calls, s =>
      (observer.answer call s).1 = .proceed ∧ observer.Quiet calls (observer.answer call s).2

@[simp] theorem after_cons (observer : Observer σ) (call : Call) (calls : List Call) (s : σ) :
    observer.after (call :: calls) s = observer.after calls (observer.answer call s).2 := rfl

@[simp] theorem after_append (observer : Observer σ) (left right : List Call) (s : σ) :
    observer.after (left ++ right) s = observer.after right (observer.after left s) :=
  List.foldl_append

theorem quiet_append {observer : Observer σ} {left right : List Call} {s : σ} :
    observer.Quiet (left ++ right) s ↔
      observer.Quiet left s ∧ observer.Quiet right (observer.after left s) := by
  induction left generalizing s with
  | nil => exact ⟨fun h => ⟨trivial, h⟩, fun h => h.2⟩
  | cons call left ih =>
      constructor
      · rintro ⟨hcall, h⟩
        exact ⟨⟨hcall, (ih.mp h).1⟩, (ih.mp h).2⟩
      · rintro ⟨⟨hcall, hleft⟩, hright⟩
        exact ⟨hcall, ih.mpr ⟨hleft, hright⟩⟩

/-- An observer that never answers but that the walk may proceed. -/
structure Passive (observer : Observer σ) : Prop where
  enter : ∀ node c s, (observer.enter node c s).1 = .proceed
  leave : ∀ node c s, (observer.leave node c s).1 = .proceed

theorem Passive.quiet {observer : Observer σ} (h : observer.Passive) (calls : List Call) (s : σ) :
    observer.Quiet calls s := by
  induction calls generalizing s with
  | nil => trivial
  | cons call calls ih =>
      refine ⟨?_, ih _⟩
      unfold answer
      cases call.event with
      | enter => exact h.enter _ _ _
      | leave => exact h.leave _ _ _

variable {observer : Observer σ} {into : Node → EStateM Underflow (State σ) Walk.Below}

/-- The way past a node with hooks that let the walk proceed, whatever becomes of its children. -/
theorem pass_of_proceed {head : Head} {children children' : Forest} {c atEnd : TypeContext}
    {s s' t t' : σ}
    (henter : observer.answer ⟨.enter, ⟨head, children⟩, c.enter schema lookup ⟨head, children⟩⟩ s =
      (.proceed, s'))
    (hbelow : Walk.below (observer.visitor schema lookup) into children
      (c.enter schema lookup ⟨head, children⟩, s') = .ok (.done children') (atEnd, t))
    (hstacks : atEnd.stacked = (c.enter schema lookup ⟨head, children⟩).stacked)
    (hleave : observer.answer ⟨.leave, ⟨head, children'⟩, atEnd⟩ t = (.proceed, t')) :
    Walk.pass (observer.visitor schema lookup) into ⟨head, children⟩
        (Walk.below (observer.visitor schema lookup) into children) (c, s) =
      .ok (.present ⟨head, children'⟩) (c.behind head.kind atEnd, t') := by
  have hbegin := visitor_enter henter
  have hentered := TypeContext.entered schema lookup ⟨head, children⟩ c
  have hend := visitor_leave schema lookup ⟨head, children'⟩ hentered hstacks hleave
  rw [Walk.pass, Stateful.bind_ok hbegin]
  dsimp only
  rw [entrance, Stateful.bind_ok hbelow, Walk.finish, Stateful.bind_ok hend]
  rfl

/-- The way past a node that a hook replaces, if the node leaves the context as it was. -/
theorem pass_of_replace {node other : Node} {children : EStateM Underflow (State σ) Walk.Below}
    {children' : Forest} {c atEnd : TypeContext} {s s' t t' : σ}
    (henter : observer.answer ⟨.enter, node, c.enter schema lookup node⟩ s = (.replace other, s'))
    (hbehind : c.behind node.kind (c.enter schema lookup node) = c)
    (hinto : into other (c.enter schema lookup other, s') = .ok (.done children') (atEnd, t))
    (hstacks : atEnd.stacked = (c.enter schema lookup other).stacked)
    (hleave : observer.answer ⟨.leave, ⟨other.head, children'⟩, atEnd⟩ t = (.proceed, t')) :
    Walk.pass (observer.visitor schema lookup) into node children (c, s) =
      .ok (.present ⟨other.head, children'⟩) (c.behind other.kind atEnd, t') := by
  have hbegin := visitor_enter henter
  have hentered := TypeContext.entered schema lookup other c
  have hend := visitor_leave schema lookup ⟨other.head, children'⟩ hentered hstacks hleave
  rw [Walk.pass, Stateful.bind_ok hbegin]
  dsimp only
  rw [entrance, hbehind, Stateful.bind_ok hinto, Walk.finish, Stateful.bind_ok hend]
  rfl

/-- A walk with an observer that is quiet at the calls of a forest makes these calls and leaves the
forest as it is. -/
theorem below_of_quiet {forest : Forest} {c : TypeContext} {s : σ}
    (h : observer.Quiet (forest.calls schema lookup c) s) :
    Walk.below (observer.visitor schema lookup) into forest (c, s) =
      .ok (.done forest)
        (forest.pass schema lookup c, observer.after (forest.calls schema lookup c) s) := by
  induction forest generalizing c s with
  | nil => rfl
  | cons role head children rest ihchildren ihrest =>
      obtain ⟨henter, h⟩ := h
      obtain ⟨hchildren, hleave, hrest⟩ := quiet_append.mp h
      have hpass := pass_of_proceed (Prod.ext henter rfl) (ihchildren hchildren)
        (children.stacked_pass _) (Prod.ext hleave rfl)
      refine (Walk.below_of_present hpass (ihrest hrest)).trans ?_
      rw [Forest.calls, after_cons, after_append, after_cons]
      rfl

theorem pass_of_quiet {node : Node} {c : TypeContext} {s : σ}
    (h : observer.Quiet (node.calls schema lookup c) s) :
    Walk.pass (observer.visitor schema lookup) into node
        (Walk.below (observer.visitor schema lookup) into node.children) (c, s) =
      .ok (.present node) (c.behind node.kind (node.children.pass schema lookup
        (c.enter schema lookup node)), observer.after (node.calls schema lookup c) s) := by
  obtain ⟨henter, h⟩ := h
  obtain ⟨hchildren, hleave, -⟩ := quiet_append.mp h
  rw [Node.calls, after_cons, after_append, after_cons]
  exact pass_of_proceed (Prod.ext henter rfl) (below_of_quiet hchildren)
    (node.children.stacked_pass _) (Prod.ext hleave rfl)

theorem run_of_quiet {limit : Nat} {document : Node} {s : σ}
    (h : observer.Quiet (document.calls schema lookup .empty) s) :
    observer.run schema lookup limit document s = .ok (.finished (some document))
      (.empty, observer.after (document.calls schema lookup .empty) s) := by
  rw [run, Walk.run_of_enter (visitor_enter (Prod.ext h.1 rfl)) (Or.inl rfl),
    Stateful.bind_ok (pass_of_quiet h), Forest.behind_pass]
  rfl

end Observer

end TypeTrace
