import TypeTrace.Schema.Standard

/-!
# Type context

While a document is walked through, a type context tells what applies to the node at hand: the
type of the selected field, the type that fields are selected on, the type of the input value, the
field, the directive and the argument. The first four are stacks, which a node's end brings back
to what they were; the last two are single slots, which it clears. A look-up that fails leaves an
absent entry and nothing else.
-/

namespace TypeTrace

/-- Finds the definition of a selected field: in a schema, on the type of a name, for a node. -/
abbrev FieldLookup := Schema → String → Node → Option FieldDef

/-- The definition of a field on a type. The two fields that lead into the schema's description of
itself belong to the type that queries start from, the field for an object's type name to every
composite type. -/
def Schema.field? (schema : Schema) (parent : Option String) (name : String) : Option FieldDef :=
  if name = "__schema" ∧ schema.query = parent then some Schema.schemaField
  else if name = "__type" ∧ schema.query = parent then some Schema.typeField
  else
    match parent.bind schema.type? with
    | none => none
    | some type =>
      if name = "__typename" ∧ type.isComposite then some Schema.typenameField
      else FieldDef.find? name type.fields

def FieldLookup.standard : FieldLookup := fun schema parent node =>
  schema.field? (some parent) (node.name?.getD "")

/-- What applies to a node: the innermost entry of each stack and the two slots. -/
structure Scope where
  type : Option TypeRef
  parent : Option String
  input : Option TypeRef
  field : Option FieldDef
  directive : Option DirectiveDef
  argument : Option InputDef
deriving DecidableEq

/-- The state of a walk's type context; the innermost entry of a stack comes first. -/
structure TypeContext where
  types : List (Option TypeRef)
  parents : List (Option String)
  inputs : List (Option TypeRef)
  fields : List (Option FieldDef)
  directive : Option DirectiveDef
  argument : Option InputDef
deriving DecidableEq

/-- The fault of a stack that has nothing left to give back. -/
inductive Underflow where
  | emptyStack
deriving DecidableEq

def Underflow.message : Underflow → String
  | emptyStack => "pop from empty list"

namespace TypeContext

def empty : TypeContext := ⟨[], [], [], [], none, none⟩

/-- The innermost entry of a stack; an empty stack has an absent one. -/
def top {α : Type} (stack : List (Option α)) : Option α := stack.head?.join

def scope (c : TypeContext) : Scope :=
  ⟨top c.types, top c.parents, top c.inputs, top c.fields, c.directive, c.argument⟩

def pushType (c : TypeContext) (type : Option TypeRef) : TypeContext :=
  { c with types := type :: c.types }

def pushParent (c : TypeContext) (parent : Option String) : TypeContext :=
  { c with parents := parent :: c.parents }

def pushInput (c : TypeContext) (input : Option TypeRef) : TypeContext :=
  { c with inputs := input :: c.inputs }

def pushField (c : TypeContext) (field : Option FieldDef) : TypeContext :=
  { c with fields := field :: c.fields }

/-- The arguments that can be given at the moment: those of the directive, or else of the field. -/
def openArguments (scope : Scope) : List InputDef :=
  match scope.directive with
  | some directive => directive.arguments
  | none =>
    match scope.field with
    | some field => field.arguments
    | none => []

/-- What a node adds to the context when it is entered. Nodes of other kinds add nothing. -/
def enter (schema : Schema) (lookup : FieldLookup) (node : Node) (c : TypeContext) : TypeContext :=
  let scope := c.scope
  let name := node.name?.getD ""
  match node.kind with
  | .selectionSet =>
    c.pushParent (scope.type.bind fun type =>
      if schema.isComposite type.base then some type.base else none)
  | .field =>
    let field := scope.parent.bind fun parent => lookup schema parent node
    (c.pushField field).pushType (field.map FieldDef.type)
  | .directive => { c with directive := schema.directive? name }
  | .operationDefinition =>
    match node.head.datum with
    | .operation operation => c.pushType ((schema.root? operation).map TypeRef.named)
    | _ => c.pushType none
  | .inlineFragment | .fragmentDefinition =>
    match node.child? .typeCondition with
    | some condition => c.pushType (schema.typeOf? condition)
    | none => c.pushType scope.type
  | .variableDefinition => c.pushInput ((node.child? .type).bind schema.typeOf?)
  | .argument =>
    let argument := InputDef.find? name (openArguments scope)
    { c with argument := argument }.pushInput (argument.map InputDef.type)
  | .listValue => c.pushInput (scope.input.bind TypeRef.item?)
  | .objectField =>
    let fields := (scope.input.bind fun type => schema.type? type.base).elim [] TypeDef.inputFields
    c.pushInput ((InputDef.find? name fields).map InputDef.type)
  | _ => c

/-- A step that may find a stack empty. The state survives it. -/
abbrev Change := EStateM Underflow TypeContext

def popType : Change Unit := fun c =>
  match c.types with
  | [] => .error .emptyStack c
  | _ :: types => .ok () { c with types := types }

def popParent : Change Unit := fun c =>
  match c.parents with
  | [] => .error .emptyStack c
  | _ :: parents => .ok () { c with parents := parents }

def popInput : Change Unit := fun c =>
  match c.inputs with
  | [] => .error .emptyStack c
  | _ :: inputs => .ok () { c with inputs := inputs }

def popField : Change Unit := fun c =>
  match c.fields with
  | [] => .error .emptyStack c
  | _ :: fields => .ok () { c with fields := fields }

def leave (kind : Kind) : Change Unit :=
  match kind with
  | .selectionSet => popParent
  | .field => do
    popField
    popType
  | .directive => modify fun c => { c with directive := none }
  | .operationDefinition | .inlineFragment | .fragmentDefinition => popType
  | .variableDefinition | .listValue | .objectField => popInput
  | .argument => do
    modify fun c => { c with argument := none }
    popInput
  | _ => pure ()

end TypeContext

end TypeTrace
