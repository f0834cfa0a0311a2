import TypeTrace.Context.Observer

/-!
# Traces

A trace lists the nodes of chosen kinds that a walk enters, each with its type context and with the
answer to the question whether the schema knows what the node refers to.
-/

namespace TypeTrace

/-- A traced node. Kinds and types are kept as texts, and depth, line and column as plain numbers,
for a report need not come from a walk. -/
structure Entry where
  kind : String
  name : Option String
  depth : Int
  line : Option Int
  column : Option Int
  type : Option String
  parent : Option String
  input : Option String
  resolved : Bool
deriving DecidableEq, Inhabited

structure DocumentTrace where
  path : String
  entries : List Entry
deriving DecidableEq, Inhabited

def DocumentTrace.unresolved (d : DocumentTrace) : Nat :=
  d.entries.countP fun entry => !entry.resolved

structure TraceResult where
  schemaPaths : List String
  documents : List DocumentTrace
deriving DecidableEq, Inhabited

namespace TraceResult

def entries (r : TraceResult) : List Entry := r.documents.flatMap DocumentTrace.entries

def entryCount (r : TraceResult) : Nat := r.entries.length

def unresolvedCount (r : TraceResult) : Nat := r.entries.countP fun entry => !entry.resolved

end TraceResult

namespace Trace

/-- What a node is called in a trace: by its variable or its type condition, if it is of a kind that
has one of these, else by its name. -/
def nameOf (node : Node) : Option String :=
  match node.kind with
  | .variableDefinition => (node.child? .variable).bind Node.name?
  | .inlineFragment => (node.child? .typeCondition).bind Node.name?
  | _ => node.name?

/-- Whether the schema knows what a node refers to. -/
def isResolved (node : Node) (scope : Scope) : Bool :=
  match node.kind with
  | .field => scope.field.isSome
  | .directive => scope.directive.isSome
  | .argument => scope.argument.isSome
  | .operationDefinition | .fragmentDefinition => scope.type.isSome
  | .inlineFragment => (node.child? .typeCondition).isNone || scope.type.isSome
  | .variableDefinition | .objectField => scope.input.isSome
  | _ => true

def entryOf (node : Node) (scope : Scope) (depth : Int) : Entry where
  kind := node.kind.text
  name := nameOf node
  depth := depth
  line := node.head.position.map fun p => (p.line : Int)
  column := node.head.position.map fun p => (p.column : Int)
  type := scope.type.map TypeRef.text
  parent := scope.parent
  input := scope.input.map TypeRef.text
  resolved := isResolved node scope

/-- What a collector has gathered, last entry first, and how deep it stands. -/
structure Collected where
  entries : List Entry
  depth : Int

/-- The observer that gathers entries of nodes of the given kinds. Its depth counts the traced nodes
that are open. -/
def collector (kinds : List String) : Observer Collected where
  enter node c s :=
    if kinds.contains node.kind.text then
      (.proceed, ⟨entryOf node c.scope s.depth :: s.entries, s.depth + 1⟩)
    else (.proceed, s)
  leave node _ s :=
    if kinds.contains node.kind.text then (.proceed, { s with depth := s.depth - 1 })
    else (.proceed, s)

/-- The trace of a document against a schema. A collector replaces nothing, so no replacement has to
be allowed. -/
def ofDocument (schema : Schema) (lookup : FieldLookup) (kinds : List String) (document : Node) :
    Except Underflow (List Entry) :=
  match (collector kinds).run schema lookup 0 document ⟨[], 0⟩ with
  | .ok _ (_, s) => .ok s.entries.reverse
  | .error fault _ => .error fault

end Trace

end TypeTrace
