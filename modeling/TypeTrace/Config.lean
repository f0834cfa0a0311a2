import TypeTrace.Kind

/-!
# Configurations

What a workspace can settle about its traces, with the values that hold where it settles nothing.
-/

namespace TypeTrace

/-- The settings of a workspace: where its schema is, which files are documents, which kinds of nodes
are traced, how large a document may be, and whether unresolved references fail a run. -/
structure Config where
  schemaPaths : List String
  patterns : List String
  kinds : List String
  maxFileKb : Int
  failOnUnresolved : Bool
deriving DecidableEq, Inhabited

namespace Config

def defaultKinds : List String :=
  [Kind.operationDefinition, .fragmentDefinition, .variableDefinition, .inlineFragment, .field,
    .directive, .argument].map Kind.text

/-- The kinds that can be traced, in the order of their names. -/
def tracedKinds : List String :=
  [Kind.argument, .directive, .field, .fragmentDefinition, .inlineFragment, .listValue, .objectField,
    .operationDefinition, .selectionSet, .variableDefinition].map Kind.text

def standard : Config where
  schemaPaths := ["schema.graphql"]
  patterns := ["**/*.graphql", "**/*.gql"]
  kinds := defaultKinds
  maxFileKb := 512
  failOnUnresolved := false

def fileName : String := "gqlcontext.yaml"

end Config

end TypeTrace
