import TypeTrace.Schema.Standard
import TypeTrace.Text.Suggestion

/-!
# Rules for schema definitions

A document that defines a schema has to keep a list of rules: names are unique where they have to
be, and types, directives and arguments that it mentions exist and stand in their place. All
breaches are reported, in the order in which a walk through the document finds them.
-/

namespace TypeTrace.Schema

inductive RuleFault where
  | secondSchema
  | secondOperationType (operation : Operation)
  | secondType (name : String)
  | secondEnumValue (type value : String)
  | secondField (type field : String)
  | secondArgumentDefinition (owner argument : String)
  | secondDirective (name : String)
  | unknownType (name : String) (near : List String)
  | unknownDirective (name : String)
  | misplacedDirective (name location : String)
  | repeatedDirective (name : String)
  | extensionOfOtherKind (kind name : String)
  | extensionOfNothing (name : String) (near : List String)
  | unknownDirectiveArgument (argument directive : String) (near : List String)
  | secondArgument (name : String)
  | secondInputField (name : String)
  | missingDirectiveArgument (directive argument : String) (type : TypeRef)
deriving DecidableEq

namespace RuleFault

def message : RuleFault → String
  | secondSchema => "Must provide only one schema definition."
  | secondOperationType operation =>
    "There can be only one " ++ operation.text ++ " type in schema."
  | secondType name => "There can be only one type named '" ++ name ++ "'."
  | secondEnumValue type value =>
    "Enum value '" ++ type ++ "." ++ value ++ "' can only be defined once."
  | secondField type field => "Field '" ++ type ++ "." ++ field ++ "' can only be defined once."
  | secondArgumentDefinition owner argument =>
    "Argument '" ++ owner ++ "(" ++ argument ++ ":)' can only be defined once."
  | secondDirective name => "There can be only one directive named '@" ++ name ++ "'."
  | unknownType name near => "Unknown type '" ++ name ++ "'." ++ Text.didYouMean near
  | unknownDirective name => "Unknown directive '@" ++ name ++ "'."
  | misplacedDirective name location =>
    "Directive '@" ++ name ++ "' may not be used on " ++ location ++ "."
  | repeatedDirective name =>
    "The directive '@" ++ name ++ "' can only be used once at this location."
  | extensionOfOtherKind kind name => "Cannot extend non-" ++ kind ++ " type '" ++ name ++ "'."
  | extensionOfNothing name near =>
    "Cannot extend type '" ++ name ++ "' because it is not defined." ++ Text.didYouMean near
  | unknownDirectiveArgument argument directive near =>
    "Unknown argument '" ++ argument ++ "' on directive '@" ++ directive ++ "'."
      ++ Text.didYouMean near
  | secondArgument name => "There can be only one argument named '" ++ name ++ "'."
  | secondInputField name => "There can be only one input field named '" ++ name ++ "'."
  | missingDirectiveArgument directive argument type =>
    "Directive '@" ++ directive ++ "' argument '" ++ argument ++ "' of type '" ++ type.text
      ++ "' is required, but it was not provided."

end RuleFault

def extensionKind? : Kind → Option Kind
  | .scalarTypeDefinition => some .scalarTypeExtension
  | .objectTypeDefinition => some .objectTypeExtension
  | .interfaceTypeDefinition => some .interfaceTypeExtension
  | .unionTypeDefinition => some .unionTypeExtension
  | .enumTypeDefinition => some .enumTypeExtension
  | .inputObjectTypeDefinition => some .inputObjectTypeExtension
  | _ => none

def isTypeDefinition (k : Kind) : Bool := (extensionKind? k).isSome

/-- What an extension of this kind extends, in words. -/
def extendedSort? : Kind → Option String
  | .scalarTypeExtension => some "scalar"
  | .objectTypeExtension => some "object"
  | .interfaceTypeExtension => some "interface"
  | .unionTypeExtension => some "union"
  | .enumTypeExtension => some "enum"
  | .inputObjectTypeExtension => some "input object"
  | _ => none

def isTypeExtension (k : Kind) : Bool := (extendedSort? k).isSome

def describesSchema (k : Kind) : Bool :=
  isTypeDefinition k || isTypeExtension k || k == .schemaDefinition || k == .schemaExtension
    || k == .directiveDefinition

/-- The place in which a directive stands on a node of this kind, below one of kind `above`. -/
def directivePlace? (node : Node) (above : Option Kind) : Option String :=
  match node.kind with
  | .operationDefinition =>
    match node.head.datum with
    | .operation .query => some "QUERY"
    | .operation .mutation => some "MUTATION"
    | .operation .subscription => some "SUBSCRIPTION"
    | _ => none
  | .field => some "FIELD"
  | .fragmentSpread => some "FRAGMENT_SPREAD"
  | .inlineFragment => some "INLINE_FRAGMENT"
  | .fragmentDefinition => some "FRAGMENT_DEFINITION"
  | .variableDefinition => some "VARIABLE_DEFINITION"
  | .schemaDefinition | .schemaExtension => some "SCHEMA"
  | .scalarTypeDefinition | .scalarTypeExtension => some "SCALAR"
  | .objectTypeDefinition | .objectTypeExtension => some "OBJECT"
  | .fieldDefinition => some "FIELD_DEFINITION"
  | .interfaceTypeDefinition | .interfaceTypeExtension => some "INTERFACE"
  | .unionTypeDefinition | .unionTypeExtension => some "UNION"
  | .enumTypeDefinition | .enumTypeExtension => some "ENUM"
  | .enumValueDefinition => some "ENUM_VALUE"
  | .inputObjectTypeDefinition | .inputObjectTypeExtension => some "INPUT_OBJECT"
  | .inputValueDefinition =>
    if above = some .inputObjectTypeDefinition then some "INPUT_FIELD_DEFINITION"
    else some "ARGUMENT_DEFINITION"
  | _ => none

def placeText (place : String) : String :=
  place.map fun c => if c = '_' then ' ' else c.toLower

def inputOf? (node : Node) : Option InputDef := do
  return ⟨← node.name?, ← (← node.child? .type).typeRef?⟩

/-- Whether a declared argument has to be given: its type admits no null and it has no default. -/
def isRequired (node : Node) : Bool :=
  (node.child? .type).any (fun type => type.kind == .nonNullType)
    && (node.child? .defaultValue).isNone

/-- The declarations among which no name occurs twice: of those with one name the last one counts. -/
def lastOfEach (inputs : List InputDef) : List InputDef :=
  (inputs.map InputDef.name).eraseDups.filterMap fun name => InputDef.find? name inputs.reverse

def directiveUse? (node : Node) : Option DirectiveUse := do
  let name ← node.name?
  let arguments := node.childList .arguments
  return ⟨name, (node.childList .locations).filterMap Node.text?,
    node.head.datum == .flag true,
    arguments.filterMap inputOf?, lastOfEach ((arguments.filter isRequired).filterMap inputOf?)⟩

/-- What the rules know of a document before they walk through it: the types that it defines, each
with the kind of its definition, and the directives, of which the last of a name counts. -/
structure Overview where
  types : List (String × Kind)
  directives : List DirectiveUse

namespace Overview

def ofDefinitions (definitions : List Node) : Overview where
  types := (definitions.filter fun d => isTypeDefinition d.kind).reverse.filterMap fun d =>
    d.name?.map (·, d.kind)
  directives :=
    (standardDirectives ++
      (definitions.filter fun d => d.kind == .directiveDefinition).filterMap directiveUse?).reverse

def typeNames (o : Overview) : List String := o.types.map Prod.fst

def directive? (o : Overview) (name : String) : Option DirectiveUse :=
  o.directives.find? fun d => d.name == name

end Overview

structure Seen where
  schema : Bool := false
  operations : List Operation := []
  types : List String := []
  enumValues : List (String × String) := []
  fields : List (String × String) := []
  directives : List String := []
  schemaDirectives : List String := []
  typeDirectives : List (String × String) := []
  inputFields : List (List String) := []

def namesOf (nodes : List Node) : List String := nodes.filterMap Node.name?

/-- Goes through keys, with those met before: the ones met again, in order, and all met. -/
def again {α : Type} [BEq α] (met : List α) (keys : List α) : List α × List α :=
  keys.foldl
    (fun (faults, met) key => if met.contains key then (faults ++ [key], met) else (faults, key :: met))
    ([], met)

/-- The keys that occur more than once, each once, in the order of their first occurrence. -/
def repeatedKeys (keys : List String) : List String :=
  keys.eraseDups.filter fun key => 1 < keys.count key

abbrev RuleWalk := StateM Seen (List RuleFault)

namespace RuleWalk

private def schemaRules (node : Node) : RuleWalk := do
  let seen ← get
  if node.kind = .schemaDefinition then
    set { seen with schema := true }
    return if seen.schema then [.secondSchema] else []
  else return []

private def operationTypeRules (node : Node) : RuleWalk := do
  let operations := (node.childList .operationTypes).filterMap fun n =>
    match n.head.datum with
    | .operation operation => some operation
    | _ => none
  let seen ← get
  let (faults, met) := again seen.operations operations
  set { seen with operations := met }
  return faults.map .secondOperationType

private def typeNameRules (name : String) : RuleWalk := do
  let seen ← get
  if seen.types.contains name then return [.secondType name]
  else
    set { seen with types := name :: seen.types }
    return []

private def enumValueRules (name : String) (node : Node) : RuleWalk := do
  let seen ← get
  let (faults, met) := again seen.enumValues ((namesOf (node.childList .values)).map (name, ·))
  set { seen with enumValues := met }
  return faults.map fun (type, value) => .secondEnumValue type value

private def fieldRules (name : String) (node : Node) : RuleWalk := do
  let seen ← get
  let (faults, met) := again seen.fields ((namesOf (node.childList .fields)).map (name, ·))
  set { seen with fields := met }
  return faults.map fun (type, field) => .secondField type field

private def argumentDefinitionRules (owner : String) (node : Node) : List RuleFault :=
  (repeatedKeys (namesOf (node.childList .arguments))).map (.secondArgumentDefinition owner)

private def directiveNameRules (name : String) : RuleWalk := do
  let seen ← get
  if seen.directives.contains name then return [.secondDirective name]
  else
    set { seen with directives := name :: seen.directives }
    return []

/-- Directives that may stand only once: on the schema and on a type over all its definitions and
extensions, else on each node. -/
private def repetitionRules (overview : Overview) (node : Node) : RuleWalk := do
  let once := (namesOf (node.childList .directives)).filter fun name =>
    (overview.directive? name).any fun d => !d.repeatable
  let seen ← get
  if node.kind = .schemaDefinition ∨ node.kind = .schemaExtension then
    let (faults, met) := again seen.schemaDirectives once
    set { seen with schemaDirectives := met }
    return faults.map .repeatedDirective
  else if isTypeDefinition node.kind || isTypeExtension node.kind then
    let (faults, met) := again seen.typeDirectives (once.map (node.name?.getD "", ·))
    set { seen with typeDirectives := met }
    return faults.map fun (_, directive) => .repeatedDirective directive
  else return (again [] once).1.map .repeatedDirective

private def namedTypeRules (overview : Overview) (top : Kind) (node : Node) : List RuleFault :=
  match node.name? with
  | none => []
  | some name =>
    if (overview.types.lookup name).isSome then []
    else if describesSchema top then
      if (standardTypes.lookup name).isSome then []
      else [.unknownType name (Text.suggestions name (standardTypes.map Prod.fst ++ overview.typeNames))]
    else [.unknownType name (Text.suggestions name overview.typeNames)]

private def extensionRules (overview : Overview) (node : Node) : List RuleFault :=
  match extendedSort? node.kind, node.name? with
  | some sort, some name =>
    match overview.types.lookup name with
    | some kind =>
      if extensionKind? kind = some node.kind then [] else [.extensionOfOtherKind sort name]
    | none => [.extensionOfNothing name (Text.suggestions name overview.typeNames)]
  | _, _ => []

private def placeRules (overview : Overview) (above : List Node) (name : String) :
    List RuleFault :=
  match overview.directive? name with
  | none => [.unknownDirective name]
  | some d =>
    match above with
    | [] => []
    | parent :: others =>
      match directivePlace? parent (others.head?.map Node.kind) with
      | some place =>
        if d.locations.contains place then [] else [.misplacedDirective name (placeText place)]
      | none => []

private def givenArgumentRules (overview : Overview) (name : String) (node : Node) :
    List RuleFault :=
  match overview.directive? name with
  | none => []
  | some d =>
    let known := d.arguments.map InputDef.name
    ((namesOf (node.childList .arguments)).filter fun a => !known.contains a).map fun a =>
      .unknownDirectiveArgument a name (Text.suggestions a known)

private def secondArgumentRules (node : Node) : List RuleFault :=
  (repeatedKeys (namesOf (node.childList .arguments))).map .secondArgument

/-- The breaches that a walk finds when it comes to a node; `above` holds the nodes above it, the
nearest first. -/
def enter (overview : Overview) (above : List Node) (node : Node) : RuleWalk := do
  let name := node.name?.getD ""
  let top := match above.reverse with
    | _ :: top :: _ => top.kind
    | _ => node.kind
  match node.kind with
  | .schemaDefinition | .schemaExtension =>
    return (← schemaRules node) ++ (← operationTypeRules node) ++ (← repetitionRules overview node)
  | .directiveDefinition =>
    return argumentDefinitionRules ("@" ++ name) node ++ (← directiveNameRules name)
      ++ (← repetitionRules overview node)
  | .namedType => return namedTypeRules overview top node
  | .directive =>
    return placeRules overview above name ++ givenArgumentRules overview name node
      ++ secondArgumentRules node
  | .field => return (← repetitionRules overview node) ++ secondArgumentRules node
  | .objectValue =>
    modify fun seen => { seen with inputFields := [] :: seen.inputFields }
    return []
  | .objectField =>
    let seen ← get
    let (faults, met) := again (seen.inputFields.headD []) [name]
    set { seen with inputFields := met :: seen.inputFields.tail }
    return faults.map .secondInputField
  | kind =>
    if isTypeDefinition kind || isTypeExtension kind then
      let types ← if isTypeDefinition kind then typeNameRules name else pure []
      let values ←
        if kind = .enumTypeDefinition ∨ kind = .enumTypeExtension then enumValueRules name node
        else pure []
      let fields ← fieldRules name node
      let arguments := (node.childList .fields).flatMap fun field =>
        argumentDefinitionRules (name ++ "." ++ field.name?.getD "") field
      return types ++ values ++ fields ++ arguments ++ (← repetitionRules overview node)
        ++ extensionRules overview node
    else repetitionRules overview node

def leave (overview : Overview) (node : Node) : RuleWalk := do
  match node.kind with
  | .objectValue =>
    modify fun seen => { seen with inputFields := seen.inputFields.tail }
    return []
  | .directive =>
    let name := node.name?.getD ""
    let given := namesOf (node.childList .arguments)
    match overview.directive? name with
    | none => return []
    | some d =>
      return (d.required.filter fun a => !given.contains a.name).map fun a =>
        .missingDirectiveArgument name a.name a.type
  | _ => return []

def walk (overview : Overview) (above : List Node) : Forest → RuleWalk
  | .nil => return []
  | .cons _ head children rest => do
    let node : Node := ⟨head, children⟩
    let entered ← enter overview above node
    let below ← walk overview (node :: above) children
    let left ← leave overview node
    let others ← walk overview above rest
    return entered ++ below ++ left ++ others

end RuleWalk

def ruleFaults (document : Node) : List RuleFault :=
  let overview := Overview.ofDefinitions (document.childList .definitions)
  (RuleWalk.walk overview [document] document.children {}).1

end TypeTrace.Schema
