import TypeTrace.Kind
import TypeTrace.Position

/-!
# Document trees

A document is a tree of nodes. What a node's children are to it is told by their roles. The
children are an ordered list of trees, written as the first tree, the children below it and the
trees to its right, so that one recursion covers depth and width.
-/

namespace TypeTrace

/-- What a child is to its parent. -/
inductive Role where
  | definitions | description | name | «alias» | variableDefinitions | directives | selectionSet
  | selections | «variable» | type | defaultValue | arguments | typeCondition | value | values
  | fields | interfaces | types | operationTypes | locations
deriving DecidableEq, Inhabited

namespace Role

def text : Role → String
  | definitions => "definitions"
  | description => "description"
  | name => "name"
  | «alias» => "alias"
  | variableDefinitions => "variable_definitions"
  | directives => "directives"
  | selectionSet => "selection_set"
  | selections => "selections"
  | «variable» => "variable"
  | type => "type"
  | defaultValue => "default_value"
  | arguments => "arguments"
  | typeCondition => "type_condition"
  | value => "value"
  | values => "values"
  | fields => "fields"
  | interfaces => "interfaces"
  | types => "types"
  | operationTypes => "operation_types"
  | locations => "locations"

def all : List Role :=
  [definitions, description, name, «alias», variableDefinitions, directives, selectionSet,
   selections, «variable», type, defaultValue, arguments, typeCondition, value, values, fields,
   interfaces, types, operationTypes, locations]

def ofText? (name : String) : Option Role := all.find? fun r => r.text == name

end Role

inductive Operation where
  | query | mutation | subscription
deriving DecidableEq, Inhabited

namespace Operation

def text : Operation → String
  | query => "query"
  | mutation => "mutation"
  | subscription => "subscription"

def ofText? : String → Option Operation
  | "query" => some query
  | "mutation" => some mutation
  | "subscription" => some subscription
  | _ => none

end Operation

/-- What a node carries besides its children: the text of a name or of a written value, a truth
value, or an operation. -/
inductive Datum where
  | none
  | text (value : String)
  | flag (value : Bool)
  | operation (value : Operation)
deriving DecidableEq, Inhabited

/-- A node without its children. The position is that of its first token. -/
structure Head where
  kind : Kind
  position : Option Position
  datum : Datum
deriving DecidableEq, Inhabited

/-- Trees in order, each with its role. -/
inductive Forest where
  | nil
  | cons (role : Role) (head : Head) (children : Forest) (rest : Forest)
deriving DecidableEq, Inhabited

/-- A tree: a node with all that is below it. -/
structure Node where
  head : Head
  children : Forest
deriving DecidableEq, Inhabited

namespace Forest

def push (role : Role) (node : Node) (rest : Forest) : Forest :=
  .cons role node.head node.children rest

def append : Forest → Forest → Forest
  | nil, other => other
  | cons role head children rest, other => cons role head children (rest.append other)

instance : Append Forest := ⟨append⟩

def ofList (role : Role) (nodes : List Node) : Forest :=
  nodes.foldr (push role) nil

def ofOption (role : Role) (node : Option Node) : Forest :=
  match node with
  | some node => push role node nil
  | none => nil

def withRole (role : Role) : Forest → List Node
  | nil => []
  | cons r head children rest =>
    if r = role then ⟨head, children⟩ :: rest.withRole role else rest.withRole role

def find? (role : Role) : Forest → Option Node
  | nil => none
  | cons r head children rest =>
    if r = role then some ⟨head, children⟩ else rest.find? role

def size : Forest → Nat
  | nil => 0
  | cons _ _ children rest => children.size + rest.size + 1

def withoutPositions : Forest → Forest
  | nil => nil
  | cons role head children rest =>
    cons role { head with position := none } children.withoutPositions rest.withoutPositions

end Forest

namespace Node

def kind (n : Node) : Kind := n.head.kind

/-- The text that a node carries itself: that of a name, a number, a string or an enum value. -/
def text? (n : Node) : Option String :=
  match n.head.datum with
  | .text value => some value
  | _ => none

def child? (n : Node) (role : Role) : Option Node := n.children.find? role

def childList (n : Node) (role : Role) : List Node := n.children.withRole role

def name? (n : Node) : Option String := (n.child? .name).bind text?

/-- How a node is called in a log: by its name if it has one, else by its own text. -/
def label (n : Node) : Option String :=
  match n.child? .name with
  | some name => name.text?
  | none => n.text?

def withoutPositions (n : Node) : Node :=
  ⟨{ n.head with position := none }, n.children.withoutPositions⟩

inductive Step where
  | role (role : Role)
  | index (n : Nat)

/-- The node that a path leads to. A role alone means its first child, a role and a number mean
the child of that number among those of the role. -/
def follow : List Step → Node → Option Node
  | [], n => some n
  | .role r :: .index i :: path, n => (n.childList r)[i]?.bind (follow path)
  | .role r :: path, n => (n.child? r).bind (follow path)
  | .index _ :: _, _ => none

end Node

end TypeTrace
