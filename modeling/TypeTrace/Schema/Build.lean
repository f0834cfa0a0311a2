import TypeTrace.Grammar.Document
import TypeTrace.Schema.Rules

/-!
# From definitions to a schema

A document that keeps the rules becomes a schema: definitions and extensions of a type are put
together, the types that operations start from are found, and every field, argument, interface and
union member is checked to be of a sort that may stand there.
-/

namespace TypeTrace.Schema

inductive BuildFault where
  | argumentNotInput
  | fieldNotOutput
  | inputFieldNotInput
  | defaultOfNoInput (type : String)
  | members (union : String)
  | interfaces (type : String)
  | fieldsOf (type : String) (cause : BuildFault)
deriving DecidableEq

namespace BuildFault

def message : BuildFault → String
  | argumentNotInput => "Argument type must be a GraphQL input type."
  | fieldNotOutput => "Field type must be an output type."
  | inputFieldNotInput => "Input field type must be a GraphQL input type."
  | defaultOfNoInput type => "Unexpected input type: " ++ type ++ "."
  | members union =>
    union ++ " types must be specified as a collection of GraphQLObjectType instances."
  | interfaces type =>
    type ++ " interfaces must be specified as a collection of GraphQLInterfaceType instances."
  | fieldsOf type cause => type ++ " fields cannot be resolved. " ++ cause.message

end BuildFault

inductive Fault where
  | unreadable (fault : SyntaxFault)
  | invalid (faults : List RuleFault)
  | unbuildable (fault : BuildFault)

def Fault.message : Fault → String
  | unreadable fault => fault.message
  | invalid faults => String.intercalate "\n\n" (faults.map RuleFault.message)
  | unbuildable fault => fault.message

structure Parts where
  definitions : List Node

namespace Parts

/-- The nodes that define and extend the type of a name, the definition first. -/
def ofType (parts : Parts) (name : String) : List Node :=
  (parts.definitions.filter fun d => isTypeDefinition d.kind && d.name? == some name) ++
    (parts.definitions.filter fun d => isTypeExtension d.kind && d.name? == some name)

def typeDefinitions (parts : Parts) : List Node :=
  parts.definitions.filter fun d => isTypeDefinition d.kind

def directiveDefinitions (parts : Parts) : List Node :=
  parts.definitions.filter fun d => d.kind == .directiveDefinition

end Parts

def fieldOf? (node : Node) : Option FieldDef := do
  return ⟨← node.name?, (node.childList .arguments).filterMap inputOf?,
    ← (← node.child? .type).typeRef?⟩

def typeOfParts (kind : Kind) (nodes : List Node) : TypeDef :=
  let namesIn (role : Role) := namesOf (nodes.flatMap fun n => n.childList role)
  let fields := nodes.flatMap fun n => n.childList .fields
  match kind with
  | .objectTypeDefinition => .object (namesIn .interfaces) (fields.filterMap fieldOf?)
  | .interfaceTypeDefinition => .interface (namesIn .interfaces) (fields.filterMap fieldOf?)
  | .unionTypeDefinition => .union (namesIn .types)
  | .enumTypeDefinition => .enum (namesIn .values)
  | .inputObjectTypeDefinition => .inputObject (fields.filterMap inputOf?)
  | _ => .scalar

/-- The types that a document defines, in order. Under a name of the language itself stands the
language's own type. -/
def definedTypes (parts : Parts) : List (String × TypeDef) :=
  parts.typeDefinitions.filterMap fun d =>
    d.name?.map fun name =>
      match standardTypes.lookup name with
      | some standard => (name, standard)
      | none => (name, typeOfParts d.kind (parts.ofType name))

/-- What the checks know: the types under construction and the nodes that they come from. -/
structure Workshop where
  parts : Parts
  types : List (String × TypeDef)

namespace Workshop

/-- What the type of a name is; the language's own types win. -/
def type? (w : Workshop) (name : String) : Option TypeDef :=
  (standardTypes.lookup name).or (w.types.lookup name)

def isInput (w : Workshop) (type : TypeRef) : Bool := (w.type? type.base).any TypeDef.isInput

def isOutput (w : Workshop) (type : TypeRef) : Bool := (w.type? type.base).any TypeDef.isOutput

def firstFault {α : Type} (check : α → Except BuildFault Unit) : List α → Except BuildFault Unit
  | [] => .ok ()
  | a :: as => do
    check a
    firstFault check as

mutual

/-- Reads a default value against its type, which stops at a type that takes no input and looks
into the fields of input objects. Whether the value fits is not asked. -/
def checkDefault (w : Workshop) (fuel : Nat) (type : TypeRef) (value : Node) :
    Except BuildFault Unit :=
  match fuel with
  | 0 => .ok ()
  | fuel + 1 =>
    match type with
    | .nonNull inner =>
      if value.kind = .nullValue then .ok () else checkDefault w fuel inner value
    | .list item =>
      if value.kind = .nullValue then .ok ()
      else if value.kind = .listValue then
        firstFault (checkDefault w fuel item) (value.childList .values)
      else checkDefault w fuel item value
    | .named name =>
      if value.kind = .nullValue then .ok ()
      else
        match w.type? name with
        | some (.inputObject _) =>
          if value.kind = .objectValue then do
            checkInputFields w fuel name
            let nodes := (w.parts.ofType name).flatMap fun n => n.childList .fields
            firstFault (fun field : Node =>
              match inputOf? field with
              | none => .ok ()
              | some input =>
                match (value.childList .fields).reverse.find? fun f => f.name? == some input.name with
                | none => .ok ()
                | some given =>
                  match given.child? .value with
                  | none => .ok ()
                  | some v => checkDefault w fuel input.type v) nodes
          else .ok ()
        | some other =>
          if other.isInput then .ok () else .error (.defaultOfNoInput name)
        | none => .ok ()

/-- Checks that an argument or input field takes input, after its default value. -/
def checkInput (w : Workshop) (fuel : Nat) (fault : BuildFault) (node : Node) :
    Except BuildFault Unit :=
  match fuel with
  | 0 => .ok ()
  | fuel + 1 =>
    match inputOf? node with
    | none => .ok ()
    | some input => do
      match node.child? .defaultValue with
      | some value => checkDefault w fuel input.type value
      | none => .ok ()
      if w.isInput input.type then .ok () else .error fault

def checkInputFields (w : Workshop) (fuel : Nat) (name : String) : Except BuildFault Unit :=
  match fuel with
  | 0 => .ok ()
  | fuel + 1 =>
    let nodes := (w.parts.ofType name).flatMap fun n => n.childList .fields
    (firstFault (checkInput w fuel .inputFieldNotInput) nodes).mapError (.fieldsOf name)

end

/-- Checks a field: its arguments first, then its own type. -/
def checkField (w : Workshop) (fuel : Nat) (node : Node) : Except BuildFault Unit := do
  firstFault (checkInput w fuel .argumentNotInput) (node.childList .arguments)
  match fieldOf? node with
  | none => .ok ()
  | some field => if w.isOutput field.type then .ok () else .error .fieldNotOutput

def checkType (w : Workshop) (fuel : Nat) (name : String) (type : TypeDef) :
    Except BuildFault Unit :=
  let checkInterfaces (names : List String) : Except BuildFault Unit :=
    if names.all fun n => match w.type? n with
      | some (.interface ..) => true
      | _ => false
    then .ok () else .error (.interfaces name)
  let checkFields : Except BuildFault Unit :=
    (firstFault (checkField w fuel)
      ((w.parts.ofType name).flatMap fun n => n.childList .fields)).mapError (.fieldsOf name)
  match type with
  | .object interfaces _ | .interface interfaces _ => do
    checkInterfaces interfaces
    checkFields
  | .union members =>
    if members.all fun n => match w.type? n with
      | some (.object ..) => true
      | _ => false
    then .ok () else .error (.members name)
  | .inputObject _ => checkInputFields w fuel name
  | _ => .ok ()

/-- Checks directives and then types, in the order of their definitions. -/
def check (w : Workshop) (fuel : Nat) : Except BuildFault Unit := do
  firstFault (fun d : Node =>
    firstFault (checkInput w fuel .argumentNotInput) (d.childList .arguments))
    w.parts.directiveDefinitions
  firstFault (fun (name, type) =>
    if (standardTypes.lookup name).isSome then .ok () else checkType w fuel name type) w.types

end Workshop

def mentioned : TypeDef → List String
  | .object _ fields | .interface _ fields =>
    fields.flatMap fun f => f.type.base :: f.arguments.map fun a => a.type.base
  | .inputObject fields => fields.map fun f => f.type.base
  | _ => []

/-- The type that an operation starts from, as the schema definition and its extensions say: the
last of them counts. -/
def declaredRoot? (parts : Parts) (operation : Operation) : Option String :=
  let nodes := (parts.definitions.filter fun d => d.kind == .schemaDefinition) ++
    (parts.definitions.filter fun d => d.kind == .schemaExtension)
  let entries := (nodes.flatMap fun n => n.childList .operationTypes).filter fun n =>
    n.head.datum == .operation operation
  entries.getLast?.bind fun n => (n.child? .type).bind Node.name?

/-- The type that an operation starts from. Without a schema definition, a type of the customary
name is taken. -/
def rootName? (parts : Parts) (types : List (String × TypeDef)) (operation : Operation)
    (customary : String) : Option String :=
  let declared := declaredRoot? parts operation
  if parts.definitions.any fun d => d.kind == .schemaDefinition then declared
  else if (types.lookup customary).isSome then some customary else declared

/-- The schema that definitions make up, once they are known to keep the rules. -/
def assemble (parts : Parts) : Schema :=
  let types := definedTypes parts
  let defined := (parts.directiveDefinitions.filterMap directiveUse?)
  let standard := standardDirectives.filter fun d => !defined.any fun e => e.name == d.name
  let directives := (defined ++ standard).map fun d => (⟨d.name, d.arguments⟩ : DirectiveDef)
  let query := rootName? parts types .query "Query"
  let mutation := rootName? parts types .mutation "Mutation"
  let subscription := rootName? parts types .subscription "Subscription"
  let used := (types.flatMap fun (_, type) => mentioned type)
    ++ (directives.flatMap fun d => d.arguments.map fun a => a.type.base)
    ++ [query, mutation, subscription].filterMap id
  let scalars := (standardScalars.filter fun name =>
    used.contains name && (types.lookup name).isNone).map (·, TypeDef.scalar)
  let own := types ++ scalars
  ⟨own ++ builtIn.filter fun (name, _) => (own.lookup name).isNone,
    query, mutation, subscription, directives⟩

def ofDocument (document : Node) : Except Fault Schema :=
  let faults := ruleFaults document
  if faults.isEmpty then
    let parts : Parts := ⟨document.childList .definitions⟩
    let workshop : Workshop := ⟨parts, definedTypes parts⟩
    match workshop.check (document.children.size + 1) with
    | .ok () => .ok (assemble parts)
    | .error fault => .error (.unbuildable fault)
  else .error (.invalid faults)

def ofText (text : String) : Except Fault Schema :=
  match Node.parse text with
  | .ok document => ofDocument document
  | .error fault => .error (.unreadable fault)

end TypeTrace.Schema
