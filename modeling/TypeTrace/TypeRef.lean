import TypeTrace.Node

/-!
# Type references

A type reference is a name within any number of lists and non-null marks. Its text is the text of
the language itself.
-/

namespace TypeTrace

inductive TypeRef where
  | named (name : String)
  | list (item : TypeRef)
  | nonNull (inner : TypeRef)
deriving DecidableEq, Inhabited

namespace TypeRef

def text : TypeRef → String
  | named name => name
  | list item => "[" ++ item.text ++ "]"
  | nonNull inner => inner.text ++ "!"

/-- The name inside all lists and marks. -/
def base : TypeRef → String
  | named name => name
  | list item => item.base
  | nonNull inner => inner.base

def nullable : TypeRef → TypeRef
  | nonNull inner => inner
  | type => type

/-- The type of the items, if the type is a list, non-null or not. -/
def item? (type : TypeRef) : Option TypeRef :=
  match type.nullable with
  | list item => some item
  | _ => none

/-- The type that a node of kind `kind` with these children writes. -/
def ofForest? (kind : Kind) : Forest → Option TypeRef
  | .nil => none
  | .cons role head children rest =>
    match kind with
    | .namedType =>
      if role = .name then named <$> Node.text? ⟨head, children⟩ else ofForest? kind rest
    | .listType => if role = .type then list <$> ofForest? head.kind children else ofForest? kind rest
    | .nonNullType =>
      if role = .type then nonNull <$> ofForest? head.kind children else ofForest? kind rest
    | _ => none

end TypeRef

def Node.typeRef? (n : Node) : Option TypeRef := TypeRef.ofForest? n.kind n.children

end TypeTrace
