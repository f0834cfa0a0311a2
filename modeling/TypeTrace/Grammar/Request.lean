import TypeTrace.Grammar.Value

/-!
# Operations and fragments

The part of the grammar that asks for data: selections, operations and fragments.
-/

namespace TypeTrace.Grammar

open Reader

/-- The name of a fragment: any name but the word that introduces a type condition. -/
def fragmentName : Reader Node := do
  if (← peek).value == "on" then unexpected else name

def field (selectionSet : Reader Node) (fuel : Nat) : Reader Node := do
  let start ← peek
  let first ← name
  let (aliasName, fieldName) ←
    if ← accept .colon then do
      let second ← name
      pure (some first, second)
    else pure (none, first)
  let args ← arguments false fuel
  let dirs ← directives false fuel
  let below ← if ← sees .braceL then some <$> selectionSet else pure none
  return .branch .field start
    (.ofOption .alias aliasName ++ .ofList .name [fieldName] ++ .ofList .arguments args
      ++ .ofList .directives dirs ++ .ofOption .selectionSet below)

/-- A fragment spread, or a fragment written in place. -/
def fragment (selectionSet : Reader Node) (fuel : Nat) : Reader Node := do
  let start ← expect .spread
  let conditioned ← acceptWord "on"
  if !conditioned && (← sees .name) then
    let n ← fragmentName
    let dirs ← directives false fuel
    return .branch .fragmentSpread start (.ofList .name [n] ++ .ofList .directives dirs)
  else
    let condition ← if conditioned then some <$> namedType else pure none
    let dirs ← directives false fuel
    let below ← selectionSet
    return .branch .inlineFragment start
      (.ofOption .typeCondition condition ++ .ofList .directives dirs
        ++ .ofList .selectionSet [below])

def selectionSet : (fuel : Nat) → Reader Node
  | 0 => unexpected
  | fuel + 1 => do
    let start ← peek
    let selections ← nonempty .braceL
      (do if ← sees .spread then fragment (selectionSet fuel) fuel
          else field (selectionSet fuel) fuel) .braceR fuel
    return .branch .selectionSet start (.ofList .selections selections)

def operationWord : Reader Operation := do
  let token ← expect .name
  match Operation.ofText? token.value with
  | some operation => return operation
  | none => failAt token (.unexpected token)

def variableDefinition (fuel : Nat) : Reader Node := do
  let start ← peek
  let about ← description
  let v ← variableUse
  let _ ← expect .colon
  let type ← typeReference fuel
  let default ← if ← accept .equals then some <$> value true fuel else pure none
  let dirs ← directives true fuel
  return .branch .variableDefinition start
    (.ofOption .description about ++ .ofList .variable [v] ++ .ofList .type [type]
      ++ .ofOption .defaultValue default ++ .ofList .directives dirs)

/-- An operation. A selection set on its own is a query. -/
def operationDefinition (fuel : Nat) : Reader Node := do
  let start ← peek
  if start.kind = .braceL then
    let below ← selectionSet fuel
    return ⟨⟨.operationDefinition, some start.position, .operation .query⟩,
      .ofList .selectionSet [below]⟩
  else
    let about ← description
    let operation ← operationWord
    let n ← if ← sees .name then some <$> name else pure none
    let vars ← optional .parenL (variableDefinition fuel) .parenR fuel
    let dirs ← directives false fuel
    let below ← selectionSet fuel
    return ⟨⟨.operationDefinition, some start.position, .operation operation⟩,
      .ofOption .description about ++ .ofOption .name n ++ .ofList .variableDefinitions vars
        ++ .ofList .directives dirs ++ .ofList .selectionSet [below]⟩

def fragmentDefinition (fuel : Nat) : Reader Node := do
  let start ← peek
  let about ← description
  expectWord "fragment"
  let n ← fragmentName
  expectWord "on"
  let condition ← namedType
  let dirs ← directives false fuel
  let below ← selectionSet fuel
  return .branch .fragmentDefinition start
    (.ofOption .description about ++ .ofList .name [n] ++ .ofList .typeCondition [condition]
      ++ .ofList .directives dirs ++ .ofList .selectionSet [below])

end TypeTrace.Grammar
