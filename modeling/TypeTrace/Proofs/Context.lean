import TypeTrace.Context

/-! # Steps of a type context

A scope that is handed down from a node to those below it needs no stacks: `Scope.within` tells what
applies to a node from what applies around it. Entering a node does to the tops of the stacks what
`Scope.within` does to a scope, and leaving it gives back the stacks from before it was entered,
whatever became of the slots in the meantime.
-/

namespace TypeTrace

/-! ## Scopes handed down -/

def Scope.absent : Scope := ⟨none, none, none, none, none, none⟩

def Schema.rootType? (schema : Schema) (node : Node) : Option TypeRef :=
  match node.head.datum with
  | .operation operation => (schema.root? operation).map TypeRef.named
  | _ => none

/-- The type of the field of a name, if the type around it is an input object. -/
def Schema.inputField? (schema : Schema) (type : Option TypeRef) (name : String) :
    Option TypeRef :=
  match type.bind fun type => schema.type? type.base with
  | some (.inputObject fields) => (InputDef.find? name fields).map InputDef.type
  | _ => none

/-- What applies to a node, from what applies around it. -/
def Scope.within (schema : Schema) (lookup : FieldLookup) (around : Scope) (node : Node) : Scope :=
  let name := node.name?.getD ""
  match node.kind with
  | .selectionSet =>
      { around with parent := (around.type.map TypeRef.base).filter schema.isComposite }
  | .field =>
      let field := around.parent.bind fun parent => lookup schema parent node
      { around with field := field, type := field.map FieldDef.type }
  | .operationDefinition => { around with type := schema.rootType? node }
  | .inlineFragment | .fragmentDefinition =>
      match node.child? .typeCondition with
      | some condition => { around with type := schema.typeOf? condition }
      | none => around
  | .variableDefinition => { around with input := (node.child? .type).bind schema.typeOf? }
  | .directive => { around with directive := schema.directive? name }
  | .argument =>
      let argument := InputDef.find? name (TypeContext.openArguments around)
      { around with argument := argument, input := argument.map InputDef.type }
  | .listValue => { around with input := around.input.bind TypeRef.item? }
  | .objectField => { around with input := schema.inputField? around.input name }
  | _ => around

/-- What applies at the end of a path that starts at the root of a document. -/
def Scope.along (schema : Schema) (lookup : FieldLookup) (path : List Node) : Scope :=
  path.foldl (Scope.within schema lookup) Scope.absent

namespace TypeContext

variable {schema : Schema} {lookup : FieldLookup} {node : Node}

theorem inputField?_eq (type : Option TypeRef) (name : String) :
    schema.inputField? type name =
      (InputDef.find? name ((type.bind fun type => schema.type? type.base).elim []
        TypeDef.inputFields)).map InputDef.type := by
  unfold Schema.inputField?
  cases type.bind fun type => schema.type? type.base with
  | none => rfl
  | some definition => cases definition <;> rfl

/-- The tops of the stacks and the slots change as a scope does that is handed down. -/
theorem scope_enter (c : TypeContext) :
    (enter schema lookup node c).scope = c.scope.within schema lookup node := by
  unfold enter Scope.within
  cases hkind : node.kind
  case selectionSet =>
    have hnamed (type : Option TypeRef) :
        (type.bind fun type => if schema.isComposite type.base then some type.base else none) =
          (type.map TypeRef.base).filter schema.isComposite := by
      cases type <;> rfl
    dsimp only
    rw [← hnamed]
    rfl
  case operationDefinition =>
    unfold Schema.rootType?
    cases node.head.datum <;> rfl
  case inlineFragment => cases node.child? .typeCondition <;> rfl
  case fragmentDefinition => cases node.child? .typeCondition <;> rfl
  case objectField =>
    simp only [inputField?_eq]
    rfl
  all_goals rfl

/-! ## One step -/

/-- What entering a node of a kind makes of a context: one entry on each stack of its kind, or a
new value of its slot. Nodes of other kinds leave all as it is. -/
inductive Entered (c : TypeContext) : Kind → TypeContext → Prop where
  | parent (parent : Option String) : Entered c .selectionSet (c.pushParent parent)
  | field (field : Option FieldDef) (type : Option TypeRef) :
      Entered c .field ((c.pushField field).pushType type)
  | directive (directive : Option DirectiveDef) :
      Entered c .directive { c with directive := directive }
  | argument (argument : Option InputDef) (type : Option TypeRef) :
      Entered c .argument ({ c with argument := argument }.pushInput type)
  | type {kind : Kind} (hkind : kind ∈ [.operationDefinition, .inlineFragment, .fragmentDefinition])
      (type : Option TypeRef) : Entered c kind (c.pushType type)
  | input {kind : Kind} (hkind : kind ∈ [.variableDefinition, .listValue, .objectField])
      (type : Option TypeRef) : Entered c kind (c.pushInput type)
  | other {kind : Kind}
      (hkind : kind ∉ [.selectionSet, .field, .directive, .operationDefinition, .inlineFragment,
        .fragmentDefinition, .variableDefinition, .argument, .listValue, .objectField]) :
      Entered c kind c

theorem entered (schema : Schema) (lookup : FieldLookup) (node : Node) (c : TypeContext) :
    Entered c node.kind (enter schema lookup node c) := by
  unfold enter
  cases hkind : node.kind
  case selectionSet => exact .parent _
  case field => exact .field _ _
  case directive => exact .directive _
  case argument => exact .argument _ _
  case operationDefinition =>
    dsimp only
    split <;> exact .type (by decide) _
  case inlineFragment =>
    dsimp only
    split <;> exact .type (by decide) _
  case fragmentDefinition =>
    dsimp only
    split <;> exact .type (by decide) _
  case variableDefinition => exact .input (by decide) _
  case listValue => exact .input (by decide) _
  case objectField => exact .input (by decide) _
  all_goals exact .other (by decide)

structure Stacks where
  types : List (Option TypeRef)
  parents : List (Option String)
  inputs : List (Option TypeRef)
  fields : List (Option FieldDef)

/-- The four stacks of a context, without its slots. -/
def stacked (c : TypeContext) : Stacks := ⟨c.types, c.parents, c.inputs, c.fields⟩

/-- The context behind a node of a kind: the stacks from before the node, and the slots as they
are at its end, but for the one that its end clears. -/
def behind (before : TypeContext) (kind : Kind) (atEnd : TypeContext) : TypeContext :=
  { before with
    directive := if kind = .directive then none else atEnd.directive
    argument := if kind = .argument then none else atEnd.argument }

/-- Two contexts with the same stacks differ in their slots only. -/
theorem eq_of_stacked {c d : TypeContext} (h : c.stacked = d.stacked) :
    c = { d with directive := c.directive, argument := c.argument } := by
  obtain ⟨types, parents, inputs, fields, directive, argument⟩ := c
  simp only [stacked, Stacks.mk.injEq] at h
  obtain ⟨rfl, rfl, rfl, rfl⟩ := h
  rfl

theorem leave_of_entered {before entrance atEnd : TypeContext} {kind : Kind}
    (hentered : Entered before kind entrance) (h : atEnd.stacked = entrance.stacked) :
    leave kind atEnd = .ok () (before.behind kind atEnd) := by
  -- Whatever the slots hold by now, an end takes its entries from the stacks alone.
  rw [eq_of_stacked h]
  cases hentered with
  | parent => rfl
  | field => rfl
  | directive => rfl
  | argument => rfl
  | type hkind =>
      simp only [List.mem_cons, List.not_mem_nil, or_false] at hkind
      rcases hkind with rfl | rfl | rfl <;> rfl
  | input hkind =>
      simp only [List.mem_cons, List.not_mem_nil, or_false] at hkind
      rcases hkind with rfl | rfl | rfl <;> rfl
  | other hkind =>
      cases kind
      all_goals first
        | rfl
        | exact absurd (by decide) hkind

/-- Leaving a node gives back the stacks from before it was entered, if they stand as they did
behind its entrance. The stacks hold enough for that. -/
theorem leave_of_stacked {before atEnd : TypeContext}
    (h : atEnd.stacked = (enter schema lookup node before).stacked) :
    leave node.kind atEnd = .ok () (before.behind node.kind atEnd) :=
  leave_of_entered (entered schema lookup node before) h

/-- To take an entry from a stack leaves the slots. -/
theorem directive_of_pop {change : Change Unit} {c d : TypeContext}
    (hchange : change ∈ [popType, popParent, popInput, popField]) (h : change c = .ok () d) :
    d.directive = c.directive := by
  simp only [List.mem_cons, List.not_mem_nil, or_false] at hchange
  rcases hchange with rfl | rfl | rfl | rfl
  · unfold popType at h
    split at h <;> cases h
    rfl
  · unfold popParent at h
    split at h <;> cases h
    rfl
  · unfold popInput at h
    split at h <;> cases h
    rfl
  · unfold popField at h
    split at h <;> cases h
    rfl

theorem directive_of_leave_field {c d : TypeContext} (h : leave .field c = .ok () d) :
    d.directive = c.directive := by
  change EStateM.bind popField (fun _ => popType) c = _ at h
  unfold EStateM.bind at h
  split at h
  · next a middle hfield =>
      cases a
      exact (directive_of_pop (by simp) h).trans (directive_of_pop (by simp) hfield)
  · cases h

/-- The end of a node puts no directive in the slot, whatever the stacks hold by now. -/
theorem directive_of_leave {kind : Kind} {c d : TypeContext} (h : leave kind c = .ok () d) :
    d.directive = c.directive ∨ d.directive = none := by
  cases kind
  case directive =>
    cases h
    exact Or.inr rfl
  case field => exact Or.inl (directive_of_leave_field h)
  case argument =>
    exact Or.inl (@directive_of_pop popInput { c with argument := none } d (by simp) h)
  all_goals first
    | exact Or.inl (@directive_of_pop popType c d (by simp) h)
    | exact Or.inl (@directive_of_pop popParent c d (by simp) h)
    | exact Or.inl (@directive_of_pop popInput c d (by simp) h)
    | exact Or.inl (congrArg directive (EStateM.Result.ok.inj h).2).symm

/-! ## What a node leaves behind -/

theorem Entered.directive_eq {before entrance : TypeContext} {kind : Kind}
    (h : Entered before kind entrance) (hkind : kind ≠ .directive) :
    entrance.directive = before.directive := by
  cases h with
  | directive => exact absurd rfl hkind
  | _ => rfl

theorem Entered.argument_eq {before entrance : TypeContext} {kind : Kind}
    (h : Entered before kind entrance) (hkind : kind ≠ .argument) :
    entrance.argument = before.argument := by
  cases h with
  | argument => exact absurd rfl hkind
  | _ => rfl

/-- The stacks are the same, and each slot is the same or empty. -/
structure Settled (before after : TypeContext) : Prop where
  stacked : after.stacked = before.stacked
  directive : after.directive = before.directive ∨ after.directive = none
  argument : after.argument = before.argument ∨ after.argument = none

theorem Settled.refl (c : TypeContext) : Settled c c := ⟨rfl, Or.inl rfl, Or.inl rfl⟩

theorem Settled.trans {c d e : TypeContext} (h : Settled c d) (h' : Settled d e) : Settled c e := by
  refine ⟨h'.stacked.trans h.stacked, ?_, ?_⟩
  · rcases h'.directive with hd | hd
    · rw [hd]
      exact h.directive
    · exact Or.inr hd
  · rcases h'.argument with ha | ha
    · rw [ha]
      exact h.argument
    · exact Or.inr ha

/-- Behind a node the context is settled as before it, if it was settled at its end as at its
entrance. -/
theorem Entered.settled_behind {before entrance atEnd : TypeContext} {kind : Kind}
    (hentered : Entered before kind entrance) (h : Settled entrance atEnd) :
    Settled before (before.behind kind atEnd) := by
  refine ⟨rfl, ?_, ?_⟩
  · by_cases hkind : kind = .directive
    · exact Or.inr (if_pos hkind)
    · rw [← hentered.directive_eq hkind]
      simpa [TypeContext.behind, hkind] using h.directive
  · by_cases hkind : kind = .argument
    · exact Or.inr (if_pos hkind)
    · rw [← hentered.argument_eq hkind]
      simpa [TypeContext.behind, hkind] using h.argument

/-- Nothing but an empty context is settled as an empty one. -/
theorem Settled.eq_empty {c : TypeContext} (h : Settled empty c) : c = empty := by
  have hdirective : c.directive = none := h.directive.elim id id
  have hargument : c.argument = none := h.argument.elim id id
  rw [eq_of_stacked h.stacked, hdirective, hargument]
  rfl

end TypeContext

end TypeTrace
