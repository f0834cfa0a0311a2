import TypeTrace.Schema

/-!
# What every schema has

The scalars that need no definition, the directives that every schema has unless it defines its
own of the same name, and the types through which a schema describes itself.
-/

namespace TypeTrace.Schema

def standardScalars : List String := ["Int", "Float", "String", "Boolean", "ID"]

private def opt (name : String) : TypeRef := .named name
private def req (name : String) : TypeRef := .nonNull (.named name)
private def listOf (name : String) : TypeRef := .list (req name)
private def plain (name : String) (type : TypeRef) : FieldDef := ⟨name, [], type⟩
private def withDeprecated (name : String) (type : TypeRef) : FieldDef :=
  ⟨name, [⟨"includeDeprecated", opt "Boolean"⟩], type⟩

def introspectionTypes : List (String × TypeDef) :=
  [("__Schema", .object []
      [plain "description" (opt "String"),
       plain "types" (.nonNull (listOf "__Type")),
       plain "queryType" (req "__Type"),
       plain "mutationType" (opt "__Type"),
       plain "subscriptionType" (opt "__Type"),
       plain "directives" (.nonNull (listOf "__Directive"))]),
   ("__Directive", .object []
      [plain "name" (req "String"),
       plain "description" (opt "String"),
       plain "isRepeatable" (req "Boolean"),
       plain "locations" (.nonNull (listOf "__DirectiveLocation")),
       withDeprecated "args" (.nonNull (listOf "__InputValue"))]),
   ("__DirectiveLocation", .enum
      ["QUERY", "MUTATION", "SUBSCRIPTION", "FIELD", "FRAGMENT_DEFINITION", "FRAGMENT_SPREAD",
       "INLINE_FRAGMENT", "VARIABLE_DEFINITION", "SCHEMA", "SCALAR", "OBJECT",
       "FIELD_DEFINITION", "ARGUMENT_DEFINITION", "INTERFACE", "UNION", "ENUM", "ENUM_VALUE",
       "INPUT_OBJECT", "INPUT_FIELD_DEFINITION"]),
   ("__Type", .object []
      [plain "kind" (req "__TypeKind"),
       plain "name" (opt "String"),
       plain "description" (opt "String"),
       plain "specifiedByURL" (opt "String"),
       withDeprecated "fields" (listOf "__Field"),
       plain "interfaces" (listOf "__Type"),
       plain "possibleTypes" (listOf "__Type"),
       withDeprecated "enumValues" (listOf "__EnumValue"),
       withDeprecated "inputFields" (listOf "__InputValue"),
       plain "ofType" (opt "__Type"),
       plain "isOneOf" (opt "Boolean")]),
   ("__Field", .object []
      [plain "name" (req "String"),
       plain "description" (opt "String"),
       withDeprecated "args" (.nonNull (listOf "__InputValue")),
       plain "type" (req "__Type"),
       plain "isDeprecated" (req "Boolean"),
       plain "deprecationReason" (opt "String")]),
   ("__InputValue", .object []
      [plain "name" (req "String"),
       plain "description" (opt "String"),
       plain "type" (req "__Type"),
       plain "defaultValue" (opt "String"),
       plain "isDeprecated" (req "Boolean"),
       plain "deprecationReason" (opt "String")]),
   ("__EnumValue", .object []
      [plain "name" (req "String"),
       plain "description" (opt "String"),
       plain "isDeprecated" (req "Boolean"),
       plain "deprecationReason" (opt "String")]),
   ("__TypeKind", .enum
      ["SCALAR", "OBJECT", "INTERFACE", "UNION", "ENUM", "INPUT_OBJECT", "LIST", "NON_NULL"])]

/-- The types that a name of the language itself has, whatever a document defines under it. -/
def standardTypes : List (String × TypeDef) :=
  standardScalars.map (·, TypeDef.scalar) ++ introspectionTypes

def builtIn : List (String × TypeDef) :=
  [("String", .scalar), ("Boolean", .scalar)] ++ introspectionTypes

/-- A directive as the rules for its use see it: where it may stand, whether it may stand there
more than once, and which arguments it takes and needs. -/
structure DirectiveUse where
  name : String
  locations : List String
  repeatable : Bool
  arguments : List InputDef
  required : List InputDef

def standardDirectives : List DirectiveUse :=
  [⟨"include", ["FIELD", "FRAGMENT_SPREAD", "INLINE_FRAGMENT"], false,
      [⟨"if", req "Boolean"⟩], [⟨"if", req "Boolean"⟩]⟩,
   ⟨"skip", ["FIELD", "FRAGMENT_SPREAD", "INLINE_FRAGMENT"], false,
      [⟨"if", req "Boolean"⟩], [⟨"if", req "Boolean"⟩]⟩,
   ⟨"deprecated", ["FIELD_DEFINITION", "ARGUMENT_DEFINITION", "INPUT_FIELD_DEFINITION",
      "ENUM_VALUE"], false, [⟨"reason", opt "String"⟩], []⟩,
   ⟨"specifiedBy", ["SCALAR"], false, [⟨"url", req "String"⟩], [⟨"url", req "String"⟩]⟩,
   ⟨"oneOf", ["INPUT_OBJECT"], false, [], []⟩]

def schemaField : FieldDef := plain "__schema" (req "__Schema")

def typeField : FieldDef := ⟨"__type", [⟨"name", req "String"⟩], opt "__Type"⟩

def typenameField : FieldDef := plain "__typename" (req "String")

end TypeTrace.Schema
