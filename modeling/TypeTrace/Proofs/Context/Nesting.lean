import TypeTrace.Proofs.Refinement

/-! # Contexts driven by hand

A context can be told of beginnings and ends of nodes in any order, without a document that is walked
through. If each beginning is matched by the end of a node of its kind, and the pairs stand side by
side or within each other, the stacks come back to where they were, whatever they held. A slot is
cleared by every end of its kind, so it is empty behind a sequence in which its kind comes up at all.
-/

namespace TypeTrace.TypeContext

/-- What a context can be told of: the beginning or the end of a node. -/
structure Action where
  event : Event
  node : Node

section

variable (schema : Schema) (lookup : FieldLookup)

/-- What becomes of a context that is told of a beginning or an end. -/
def act : Action → Change Unit
  | ⟨.enter, node⟩ => modify (enter schema lookup node)
  | ⟨.leave, node⟩ => leave node.kind

/-- What becomes of a context that is told of one thing after the other, up to the first fault. -/
def perform : List Action → Change Unit
  | [] => pure ()
  | action :: actions => do
    act schema lookup action
    perform actions

end

variable {schema : Schema} {lookup : FieldLookup} {actions others : List Action} {action : Action}
  {c d : TypeContext}

theorem perform_cons (h : act schema lookup action c = .ok () d) :
    perform schema lookup (action :: actions) c = perform schema lookup actions d :=
  Stateful.bind_ok h

theorem perform_append (h : perform schema lookup actions c = .ok () d) :
    perform schema lookup (actions ++ others) c = perform schema lookup others d := by
  induction actions generalizing c with
  | nil =>
      cases h
      rfl
  | cons action actions ih =>
      obtain ⟨_, middle, haction, h⟩ := Stateful.exists_of_bind_eq_ok h
      rw [List.cons_append, perform_cons haction]
      exact ih h

/-! ## Matching pairs -/

/-- Each beginning is matched by the end of a node of the same kind, and what stands between them
matches in turn. -/
inductive Nested : List Action → Prop where
  | nil : Nested []
  | pair {node other : Node} {inner rest : List Action} (hkind : other.kind = node.kind)
      (hinner : Nested inner) (hrest : Nested rest) :
      Nested (⟨.enter, node⟩ :: (inner ++ ⟨.leave, other⟩ :: rest))

/-- Whether some node of a kind begins. -/
def begins (kind : Kind) (actions : List Action) : Bool :=
  actions.any fun action => action.event = .enter ∧ action.node.kind = kind

/-- A context whose slots are empty if a node of their kind has begun. -/
def cleared (c : TypeContext) (actions : List Action) : TypeContext :=
  { c with
    directive := if begins .directive actions then none else c.directive
    argument := if begins .argument actions then none else c.argument }

theorem begins_pair (kind : Kind) (node other : Node) (inner rest : List Action) :
    begins kind (⟨.enter, node⟩ :: (inner ++ ⟨.leave, other⟩ :: rest)) =
      (decide (node.kind = kind) || begins kind inner || begins kind rest) := by
  simp [begins, Bool.or_assoc]

/-- A slot that only nodes of a kind fill is cleared within a node, at its end and behind it as by all
of that at once. -/
theorem slot_pair {α : Type} {kind : Kind} {node : Node} {before entrance : Option α}
    (h : node.kind ≠ kind → entrance = before) (other : Node) (inner rest : List Action) :
    (if begins kind rest then none else
      if node.kind = kind then none else if begins kind inner then none else entrance) =
      if begins kind (⟨.enter, node⟩ :: (inner ++ ⟨.leave, other⟩ :: rest)) then none
        else before := by
  rw [begins_pair]
  by_cases hkind : node.kind = kind
  · simp [hkind]
  · rw [h hkind]
    cases begins kind inner <;> cases begins kind rest <;> simp [hkind]

theorem Entered.cleared_pair {node : Node} (h : Entered c node.kind d) (other : Node)
    (inner rest : List Action) :
    (c.behind node.kind (d.cleared inner)).cleared rest =
      c.cleared (⟨.enter, node⟩ :: (inner ++ ⟨.leave, other⟩ :: rest)) :=
  congrArg₂ (fun directive argument => { c with directive, argument })
    (slot_pair h.directive_eq other inner rest) (slot_pair h.argument_eq other inner rest)

theorem perform_of_nested (h : Nested actions) (c : TypeContext) :
    perform schema lookup actions c = .ok () (c.cleared actions) := by
  induction h generalizing c with
  | nil => rfl
  | @pair node other inner rest hkind _ _ ihinner ihrest =>
      have hentered := entered schema lookup node c
      have hend : act schema lookup ⟨.leave, other⟩ ((c.enter schema lookup node).cleared inner) =
          .ok () (c.behind node.kind ((c.enter schema lookup node).cleared inner)) := by
        rw [act, hkind]
        exact leave_of_entered hentered rfl
      rw [perform_cons rfl, perform_append (ihinner _), perform_cons hend, ihrest,
        hentered.cleared_pair]

/-- Beginnings and ends that match give back the stacks as they were, in any state of the context and
for any nodes, and each slot is as it was unless a node of its kind has begun: then it is empty. -/
theorem matching_actions_restore (schema : Schema) (lookup : FieldLookup) (c : TypeContext)
    (h : Nested actions) :
    ∃ d, perform schema lookup actions c = .ok () d ∧ d.stacked = c.stacked ∧
      d.directive = (if begins .directive actions then none else c.directive) ∧
      d.argument = (if begins .argument actions then none else c.argument) :=
  ⟨_, perform_of_nested h c, rfl, rfl, rfl⟩

/-- A node of a kind with a name, and with nothing else. -/
def nodeNamed (kind : Kind) (name : String) : Node :=
  ⟨⟨kind, none, .none⟩, .push .name ⟨⟨.name, none, .text name⟩, .nil⟩ .nil⟩

/-- A directive within an argument of another one, and a field behind them. -/
def directiveWithin : List Action :=
  [⟨.enter, nodeNamed .directive "d"⟩, ⟨.enter, nodeNamed .argument "y"⟩,
    ⟨.enter, nodeNamed .directive "unknown"⟩, ⟨.leave, nodeNamed .directive "other"⟩,
    ⟨.leave, nodeNamed .argument "other"⟩, ⟨.leave, nodeNamed .directive "d"⟩,
    ⟨.enter, nodeNamed .field "a"⟩, ⟨.leave, nodeNamed .field "b"⟩]

/-- The slots are filled to begin with, and empty behind a directive and an argument. -/
theorem matching_actions_restore_on_ring :
    Nested directiveWithin ∧ ∃ d,
      perform .ring .standard directiveWithin ⟨[none], [some "Query"], [none, none], [],
        some ⟨"d", []⟩, some ⟨"x", .named "Int"⟩⟩ = .ok () d ∧
      d.stacked = ⟨[none], [some "Query"], [none, none], []⟩ ∧ d.directive = none ∧
      d.argument = none := by
  have hinner : Nested [⟨.enter, nodeNamed .directive "unknown"⟩,
      ⟨.leave, nodeNamed .directive "other"⟩] := @Nested.pair _ _ [] [] rfl .nil .nil
  have hargument : Nested [⟨.enter, nodeNamed .argument "y"⟩,
      ⟨.enter, nodeNamed .directive "unknown"⟩, ⟨.leave, nodeNamed .directive "other"⟩,
      ⟨.leave, nodeNamed .argument "other"⟩] := @Nested.pair _ _ [_, _] [] rfl hinner .nil
  have hfield : Nested [⟨.enter, nodeNamed .field "a"⟩, ⟨.leave, nodeNamed .field "b"⟩] :=
    @Nested.pair _ _ [] [] rfl .nil .nil
  have hnested : Nested directiveWithin :=
    @Nested.pair _ _ [_, _, _, _] _ rfl hargument hfield
  exact ⟨hnested, matching_actions_restore .ring .standard _ hnested⟩

end TypeTrace.TypeContext
