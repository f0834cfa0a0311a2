/-!
# Kinds of nodes

Every node of a document has one of a fixed set of kinds, each with the name that reports and
configurations use for it.
-/

namespace TypeTrace

inductive Kind where
  | name | document | operationDefinition | variableDefinition | selectionSet | field | argument
  | fragmentSpread | inlineFragment | fragmentDefinition | «variable» | intValue | floatValue
  | stringValue | booleanValue | nullValue | enumValue | listValue | objectValue | objectField
  | directive | namedType | listType | nonNullType | schemaDefinition | operationTypeDefinition
  | scalarTypeDefinition | objectTypeDefinition | fieldDefinition | inputValueDefinition
  | interfaceTypeDefinition | unionTypeDefinition | enumTypeDefinition | enumValueDefinition
  | inputObjectTypeDefinition | directiveDefinition | schemaExtension | scalarTypeExtension
  | objectTypeExtension | interfaceTypeExtension | unionTypeExtension | enumTypeExtension
  | inputObjectTypeExtension | directiveExtension
deriving DecidableEq, Inhabited

namespace Kind

def text : Kind → String
  | name => "name"
  | document => "document"
  | operationDefinition => "operation_definition"
  | variableDefinition => "variable_definition"
  | selectionSet => "selection_set"
  | field => "field"
  | argument => "argument"
  | fragmentSpread => "fragment_spread"
  | inlineFragment => "inline_fragment"
  | fragmentDefinition => "fragment_definition"
  | .variable => "variable"
  | intValue => "int_value"
  | floatValue => "float_value"
  | stringValue => "string_value"
  | booleanValue => "boolean_value"
  | nullValue => "null_value"
  | enumValue => "enum_value"
  | listValue => "list_value"
  | objectValue => "object_value"
  | objectField => "object_field"
  | directive => "directive"
  | namedType => "named_type"
  | listType => "list_type"
  | nonNullType => "non_null_type"
  | schemaDefinition => "schema_definition"
  | operationTypeDefinition => "operation_type_definition"
  | scalarTypeDefinition => "scalar_type_definition"
  | objectTypeDefinition => "object_type_definition"
  | fieldDefinition => "field_definition"
  | inputValueDefinition => "input_value_definition"
  | interfaceTypeDefinition => "interface_type_definition"
  | unionTypeDefinition => "union_type_definition"
  | enumTypeDefinition => "enum_type_definition"
  | enumValueDefinition => "enum_value_definition"
  | inputObjectTypeDefinition => "input_object_type_definition"
  | directiveDefinition => "directive_definition"
  | schemaExtension => "schema_extension"
  | scalarTypeExtension => "scalar_type_extension"
  | objectTypeExtension => "object_type_extension"
  | interfaceTypeExtension => "interface_type_extension"
  | unionTypeExtension => "union_type_extension"
  | enumTypeExtension => "enum_type_extension"
  | inputObjectTypeExtension => "input_object_type_extension"
  | directiveExtension => "directive_extension"

def all : List Kind :=
  [.name, .document, .operationDefinition, .variableDefinition, .selectionSet, .field, .argument,
   .fragmentSpread, .inlineFragment, .fragmentDefinition, .variable, .intValue, .floatValue,
   .stringValue, .booleanValue, .nullValue, .enumValue, .listValue, .objectValue, .objectField,
   .directive, .namedType, .listType, .nonNullType, .schemaDefinition, .operationTypeDefinition,
   .scalarTypeDefinition, .objectTypeDefinition, .fieldDefinition, .inputValueDefinition,
   .interfaceTypeDefinition, .unionTypeDefinition, .enumTypeDefinition, .enumValueDefinition,
   .inputObjectTypeDefinition, .directiveDefinition, .schemaExtension, .scalarTypeExtension,
   .objectTypeExtension, .interfaceTypeExtension, .unionTypeExtension, .enumTypeExtension,
   .inputObjectTypeExtension, .directiveExtension]

/-- Names that stand for several kinds at once, or for a kind in a constant position. A hook may be
named for one of them, but no node has such a kind. -/
def families : List String :=
  ["definition", "executable_definition", "selection", "value", "type", "type_system_definition",
   "type_definition", "type_extension", "const_argument", "const_list_value",
   "const_object_value", "const_object_field", "const_directive"]

/-- A name written with capitals where words begin, in place of underscores. -/
def capitalized (name : String) : String :=
  let rec go (up : Bool) : List Char → List Char
    | '_' :: c :: cs =>
      if ('a' ≤ c && c ≤ 'z') || ('0' ≤ c && c ≤ '9') then c.toUpper :: go false cs
      else '_' :: go false (c :: cs)
    | c :: cs => (if up then c.toUpper else c) :: go false cs
    | [] => []
  String.ofList (go true name.toList)

/-- Whether a hook may be named for `name`: the name of a kind or of a family, up to the way in
which its words are joined. -/
def namesHook (name : String) : Bool :=
  ((all.map text ++ families).map capitalized).contains (capitalized name)

end Kind

end TypeTrace
