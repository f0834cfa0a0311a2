import TypeTrace.Grammar.Request

/-!
# Type definitions

The part of the grammar that describes a schema: definitions of types and directives, and
extensions of types.
-/

namespace TypeTrace.Grammar

open Reader

/-- Names of types behind a keyword or mark, parted by another mark; none if it is not there. -/
def implemented (fuel : Nat) : Reader (List Node) := do
  if ← acceptWord "implements" then separated .amp namedType fuel else return []

def inputValueDefinition (fuel : Nat) : Reader Node := do
  let start ← peek
  let about ← description
  let n ← name
  let _ ← expect .colon
  let type ← typeReference fuel
  let default ← if ← accept .equals then some <$> value true fuel else pure none
  let dirs ← directives true fuel
  return .branch .inputValueDefinition start
    (.ofOption .description about ++ .ofList .name [n] ++ .ofList .type [type]
      ++ .ofOption .defaultValue default ++ .ofList .directives dirs)

def argumentDefinitions (fuel : Nat) : Reader (List Node) :=
  optional .parenL (inputValueDefinition fuel) .parenR fuel

def fieldDefinition (fuel : Nat) : Reader Node := do
  let start ← peek
  let about ← description
  let n ← name
  let args ← argumentDefinitions fuel
  let _ ← expect .colon
  let type ← typeReference fuel
  let dirs ← directives true fuel
  return .branch .fieldDefinition start
    (.ofOption .description about ++ .ofList .name [n] ++ .ofList .arguments args
      ++ .ofList .type [type] ++ .ofList .directives dirs)

def fieldDefinitions (fuel : Nat) : Reader (List Node) :=
  optional .braceL (fieldDefinition fuel) .braceR fuel

def inputFieldDefinitions (fuel : Nat) : Reader (List Node) :=
  optional .braceL (inputValueDefinition fuel) .braceR fuel

def unionMembers (fuel : Nat) : Reader (List Node) := do
  if ← accept .equals then separated .pipe namedType fuel else return []

/-- A value that an enum declares. The words for truth values and for null are reserved. -/
def enumValueDefinition (fuel : Nat) : Reader Node := do
  let start ← peek
  let about ← description
  let token ← peek
  if token.value == "true" || token.value == "false" || token.value == "null" then
    failAt token (.reservedEnumValue token)
  let n ← name
  let dirs ← directives true fuel
  return .branch .enumValueDefinition start
    (.ofOption .description about ++ .ofList .name [n] ++ .ofList .directives dirs)

def enumValueDefinitions (fuel : Nat) : Reader (List Node) :=
  optional .braceL (enumValueDefinition fuel) .braceR fuel

def operationTypeDefinition : Reader Node := do
  let start ← peek
  let operation ← operationWord
  let _ ← expect .colon
  let type ← namedType
  return ⟨⟨.operationTypeDefinition, some start.position, .operation operation⟩,
    .ofList .type [type]⟩

def directiveLocations : List String :=
  ["QUERY", "MUTATION", "SUBSCRIPTION", "FIELD", "FRAGMENT_DEFINITION", "FRAGMENT_SPREAD",
   "INLINE_FRAGMENT", "VARIABLE_DEFINITION", "SCHEMA", "SCALAR", "OBJECT", "FIELD_DEFINITION",
   "ARGUMENT_DEFINITION", "INTERFACE", "UNION", "ENUM", "ENUM_VALUE", "INPUT_OBJECT",
   "INPUT_FIELD_DEFINITION", "DIRECTIVE_DEFINITION"]

def directiveLocation : Reader Node := do
  let start ← peek
  let n ← name
  if directiveLocations.contains start.value then return n
  else failAt start (.unexpected start)

/-- The start of a definition, with its description and keyword. -/
def opening (word : String) : Reader (Token × Forest) := do
  let start ← peek
  let about ← description
  expectWord word
  return (start, .ofOption .description about)

def schemaDefinition (fuel : Nat) : Reader Node := do
  let (start, about) ← opening "schema"
  let dirs ← directives true fuel
  let types ← nonempty .braceL operationTypeDefinition .braceR fuel
  return .branch .schemaDefinition start
    (about ++ .ofList .directives dirs ++ .ofList .operationTypes types)

def scalarDefinition (fuel : Nat) : Reader Node := do
  let (start, about) ← opening "scalar"
  let n ← name
  let dirs ← directives true fuel
  return .branch .scalarTypeDefinition start
    (about ++ .ofList .name [n] ++ .ofList .directives dirs)

def fieldsDefinition (kind : Kind) (word : String) (fuel : Nat) : Reader Node := do
  let (start, about) ← opening word
  let n ← name
  let interfaces ← implemented fuel
  let dirs ← directives true fuel
  let fields ← fieldDefinitions fuel
  return .branch kind start
    (about ++ .ofList .name [n] ++ .ofList .interfaces interfaces ++ .ofList .directives dirs
      ++ .ofList .fields fields)

def unionDefinition (fuel : Nat) : Reader Node := do
  let (start, about) ← opening "union"
  let n ← name
  let dirs ← directives true fuel
  let members ← unionMembers fuel
  return .branch .unionTypeDefinition start
    (about ++ .ofList .name [n] ++ .ofList .directives dirs ++ .ofList .types members)

def enumDefinition (fuel : Nat) : Reader Node := do
  let (start, about) ← opening "enum"
  let n ← name
  let dirs ← directives true fuel
  let values ← enumValueDefinitions fuel
  return .branch .enumTypeDefinition start
    (about ++ .ofList .name [n] ++ .ofList .directives dirs ++ .ofList .values values)

def inputObjectDefinition (fuel : Nat) : Reader Node := do
  let (start, about) ← opening "input"
  let n ← name
  let dirs ← directives true fuel
  let fields ← inputFieldDefinitions fuel
  return .branch .inputObjectTypeDefinition start
    (about ++ .ofList .name [n] ++ .ofList .directives dirs ++ .ofList .fields fields)

/-- A directive's definition. A directive that may be repeated carries a flag. -/
def directiveDefinition (fuel : Nat) : Reader Node := do
  let (start, about) ← opening "directive"
  let _ ← expect .at
  let n ← name
  let args ← argumentDefinitions fuel
  let repeatable ← acceptWord "repeatable"
  expectWord "on"
  let places ← separated .pipe directiveLocation fuel
  return ⟨⟨.directiveDefinition, some start.position, .flag repeatable⟩,
    about ++ .ofList .name [n] ++ .ofList .arguments args ++ .ofList .locations places⟩

/-- The parts of an extension behind its keywords; an extension that adds nothing is refused. -/
def extended (kind : Kind) (start : Token) (named : List Node) (parts : List (Role × List Node)) :
    Reader Node := do
  if parts.all fun part => part.2.isEmpty then unexpected
  else
    return .branch kind start
      (parts.foldl (fun children part => children ++ .ofList part.1 part.2)
        (.ofList .name named))

def extension (fuel : Nat) : Reader Node := do
  let start ← peek
  let word ← peekSecond
  if word.kind ≠ .name then failAt word (.unexpected word)
  match word.value with
  | "schema" =>
    advance; advance
    let dirs ← directives true fuel
    let types ← optional .braceL operationTypeDefinition .braceR fuel
    extended .schemaExtension start [] [(.directives, dirs), (.operationTypes, types)]
  | "scalar" =>
    advance; advance
    let n ← name
    let dirs ← directives true fuel
    extended .scalarTypeExtension start [n] [(.directives, dirs)]
  | "type" => fieldsExtension start .objectTypeExtension
  | "interface" => fieldsExtension start .interfaceTypeExtension
  | "union" =>
    advance; advance
    let n ← name
    let dirs ← directives true fuel
    let members ← unionMembers fuel
    extended .unionTypeExtension start [n] [(.directives, dirs), (.types, members)]
  | "enum" =>
    advance; advance
    let n ← name
    let dirs ← directives true fuel
    let values ← enumValueDefinitions fuel
    extended .enumTypeExtension start [n] [(.directives, dirs), (.values, values)]
  | "input" =>
    advance; advance
    let n ← name
    let dirs ← directives true fuel
    let fields ← inputFieldDefinitions fuel
    extended .inputObjectTypeExtension start [n] [(.directives, dirs), (.fields, fields)]
  | _ => failAt word (.unexpected word)
where
  fieldsExtension (start : Token) (kind : Kind) : Reader Node := do
    advance; advance
    let n ← name
    let interfaces ← implemented fuel
    let dirs ← directives true fuel
    let fields ← fieldDefinitions fuel
    extended kind start [n]
      [(.interfaces, interfaces), (.directives, dirs), (.fields, fields)]

end TypeTrace.Grammar
