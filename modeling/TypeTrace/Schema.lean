import TypeTrace.TypeRef

/-!
# Schemas

A schema names types and directives. Types refer to each other by name, so a schema is a finite
table and equality of types is equality of their texts.
-/

namespace TypeTrace

/-- An argument of a field or a directive, or a field of an input object. -/
structure InputDef where
  name : String
  type : TypeRef
deriving DecidableEq, Inhabited

structure FieldDef where
  name : String
  arguments : List InputDef
  type : TypeRef
deriving DecidableEq, Inhabited

structure DirectiveDef where
  name : String
  arguments : List InputDef
deriving DecidableEq, Inhabited

inductive TypeDef where
  | scalar
  | object (interfaces : List String) (fields : List FieldDef)
  | interface (interfaces : List String) (fields : List FieldDef)
  | union (members : List String)
  | enum (values : List String)
  | inputObject (fields : List InputDef)
deriving DecidableEq, Inhabited

namespace TypeDef

/-- Types that something can be selected on. -/
def isComposite : TypeDef → Bool
  | object .. | interface .. | union .. => true
  | _ => false

def isOutput : TypeDef → Bool
  | inputObject .. => false
  | _ => true

def isInput : TypeDef → Bool
  | scalar | enum .. | inputObject .. => true
  | _ => false

def fields : TypeDef → List FieldDef
  | object _ fields | interface _ fields => fields
  | _ => []

def inputFields : TypeDef → List InputDef
  | inputObject fields => fields
  | _ => []

end TypeDef

/-- A schema: its types by name, the names of the types that operations start from, and its
directives. -/
structure Schema where
  types : List (String × TypeDef)
  query : Option String
  mutation : Option String
  subscription : Option String
  directives : List DirectiveDef
deriving Inhabited

def FieldDef.text (f : FieldDef) : String :=
  let arguments := f.arguments.map fun a => a.name ++ ": " ++ a.type.text
  (if arguments.isEmpty then "" else "(" ++ String.intercalate ", " arguments ++ ")")
    ++ ": " ++ f.type.text

def FieldDef.find? (name : String) (fields : List FieldDef) : Option FieldDef :=
  fields.find? fun f => f.name == name

def InputDef.find? (name : String) (inputs : List InputDef) : Option InputDef :=
  inputs.find? fun i => i.name == name

namespace Schema

def type? (schema : Schema) (name : String) : Option TypeDef := schema.types.lookup name

def directive? (schema : Schema) (name : String) : Option DirectiveDef :=
  schema.directives.find? fun d => d.name == name

def root? (schema : Schema) : Operation → Option String
  | .query => schema.query
  | .mutation => schema.mutation
  | .subscription => schema.subscription

def isComposite (schema : Schema) (name : String) : Bool :=
  (schema.type? name).any TypeDef.isComposite

def isOutput (schema : Schema) (type : TypeRef) : Bool :=
  (schema.type? type.base).any TypeDef.isOutput

def isInput (schema : Schema) (type : TypeRef) : Bool :=
  (schema.type? type.base).any TypeDef.isInput

/-- The type that a node writes, if the schema has a type of that name. -/
def typeOf? (schema : Schema) (node : Node) : Option TypeRef :=
  node.typeRef?.bind fun type => if (schema.type? type.base).isSome then some type else none

def typeNames (schema : Schema) : List String := schema.types.map (·.1)

end Schema

end TypeTrace
