import TypeTrace.Grammar.Definition

/-!
# Documents

A document is one definition after another, at least one. `Node.parse` reads a whole text.
-/

namespace TypeTrace

namespace Grammar

open Reader

/-- A definition. The keyword decides which; before it a description may stand, but not before a
selection set on its own and not before an extension. -/
def definition (fuel : Nat) : Reader Node := do
  let token ← peek
  if token.kind = .braceL then operationDefinition fuel
  else
    let described := token.kind == .string || token.kind == .blockString
    let word ← if described then peekSecond else pure token
    if described && word.kind == .braceL then failAt token .describedShorthand
    if word.kind ≠ .name then failAt word (.unexpected word)
    match word.value with
    | "schema" => schemaDefinition fuel
    | "scalar" => scalarDefinition fuel
    | "type" => fieldsDefinition .objectTypeDefinition "type" fuel
    | "interface" => fieldsDefinition .interfaceTypeDefinition "interface" fuel
    | "union" => unionDefinition fuel
    | "enum" => enumDefinition fuel
    | "input" => inputObjectDefinition fuel
    | "directive" => directiveDefinition fuel
    | "query" | "mutation" | "subscription" => operationDefinition fuel
    | "fragment" => fragmentDefinition fuel
    | other =>
      if described then failAt token .describedOther
      else if other == "extend" then extension fuel
      else failAt word (.unexpected word)

def document (fuel : Nat) : Reader Node := do
  let _ ← peek
  let definitions ← someUntil .endOfText (definition fuel) [] fuel
  return ⟨⟨.document, some Position.start, .none⟩, .ofList .definitions definitions⟩

end Grammar

def TokenStream.document (stream : TokenStream) : Except SyntaxFault Node :=
  (·.1) <$> Grammar.document (stream.size + 1) stream

def Node.parse (text : String) : Except SyntaxFault Node := (TokenStream.ofText text).document

end TypeTrace
