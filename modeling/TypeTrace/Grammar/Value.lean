import TypeTrace.Grammar.Basic

/-!
# Names, values, arguments, directives and types

The parts of the grammar that requests and definitions share. In a constant no variable may stand.
-/

namespace TypeTrace.Grammar

open Reader

def name : Reader Node := do
  let token ← expect .name
  return .leaf .name token (.text token.value)

def variableUse : Reader Node := do
  let start ← expect .dollar
  let n ← name
  return .branch .variable start (.ofList .name [n])

/-- Fails at a variable in a constant; what follows the dollar sign decides how. -/
def variableInConstant : Reader Node := do
  let start ← expect .dollar
  let token ← peek
  if token.kind = .name then failAt start (.variableInConstant token.value)
  else failAt start (.unexpected start)

def value (constant : Bool) : (fuel : Nat) → Reader Node
  | 0 => unexpected
  | fuel + 1 => do
    let start ← peek
    match start.kind with
    | .bracketL =>
      let values ← any .bracketL (value constant fuel) .bracketR fuel
      return .branch .listValue start (.ofList .values values)
    | .braceL =>
      let fields ← any .braceL (objectField (value constant fuel)) .braceR fuel
      return .branch .objectValue start (.ofList .fields fields)
    | .int =>
      advance
      return .leaf .intValue start (.text start.value)
    | .float =>
      advance
      return .leaf .floatValue start (.text start.value)
    | .string | .blockString =>
      advance
      return .leaf .stringValue start (.text start.value)
    | .name =>
      advance
      match start.value with
      | "true" => return .leaf .booleanValue start (.flag true)
      | "false" => return .leaf .booleanValue start (.flag false)
      | "null" => return .leaf .nullValue start .none
      | word => return .leaf .enumValue start (.text word)
    | .dollar => if constant then variableInConstant else variableUse
    | _ => unexpected
where
  objectField (value : Reader Node) : Reader Node := do
    let start ← peek
    let n ← name
    let _ ← expect .colon
    let v ← value
    return .branch .objectField start (.ofList .name [n] ++ .ofList .value [v])

def argument (constant : Bool) (fuel : Nat) : Reader Node := do
  let start ← peek
  let n ← name
  let _ ← expect .colon
  let v ← value constant fuel
  return .branch .argument start (.ofList .name [n] ++ .ofList .value [v])

def arguments (constant : Bool) (fuel : Nat) : Reader (List Node) :=
  optional .parenL (argument constant fuel) .parenR fuel

def directive (constant : Bool) (fuel : Nat) : Reader Node := do
  let start ← expect .at
  let n ← name
  let args ← arguments constant fuel
  return .branch .directive start (.ofList .name [n] ++ .ofList .arguments args)

def directives (constant : Bool) (fuel : Nat) : Reader (List Node) :=
  Reader.repeated .at (directive constant fuel) [] fuel

def namedType : Reader Node := do
  let start ← peek
  let n ← name
  return .branch .namedType start (.ofList .name [n])

/-- A type: a name or a type in brackets, with or without an exclamation mark. -/
def typeReference : (fuel : Nat) → Reader Node
  | 0 => unexpected
  | fuel + 1 => do
    let start ← peek
    let inner ←
      if ← accept .bracketL then
        let element ← typeReference fuel
        let _ ← expect .bracketR
        pure (Node.branch .listType start (.ofList .type [element]))
      else namedType
    if ← accept .bang then return .branch .nonNullType start (.ofList .type [inner])
    else return inner

def description : Reader (Option Node) := do
  let token ← peek
  if token.kind = .string ∨ token.kind = .blockString then
    advance
    return some (.leaf .stringValue token (.text token.value))
  else return none

end TypeTrace.Grammar
