import TypeTrace.Position

/-!
# Tokens of a query document

The words and marks that a document or a schema definition is made of, how a message names them,
and every way in which a text can fail to be a document.
-/

namespace TypeTrace

/-- The classes of tokens. `endOfText` closes every token list. -/
inductive TokenKind where
  | bang | dollar | amp | parenL | parenR | spread | colon | equals | at | bracketL | bracketR
  | braceL | pipe | braceR
  | name | int | float | string | blockString
  | endOfText
deriving DecidableEq, Inhabited

namespace TokenKind

def text : TokenKind → String
  | bang => "'!'" | dollar => "'$'" | amp => "'&'" | parenL => "'('" | parenR => "')'"
  | spread => "'...'" | colon => "':'" | equals => "'='" | .at => "'@'" | bracketL => "'['"
  | bracketR => "']'" | braceL => "'\x7b'" | pipe => "'|'" | braceR => "'\x7d'"
  | name => "Name" | int => "Int" | float => "Float" | string => "String"
  | blockString => "BlockString" | endOfText => "<EOF>"

/-- The classes whose tokens carry a text of their own. -/
def carriesText : TokenKind → Bool
  | name | int | float | string | blockString => true
  | _ => false

end TokenKind

/-- A token with its value (empty for marks) and the position of its first character. Names and
numbers are kept as written; strings are kept as the text that they mean. -/
structure Token where
  kind : TokenKind
  value : String
  position : Position
deriving DecidableEq, Inhabited

namespace Token

def text (t : Token) : String :=
  if t.kind.carriesText then t.kind.text ++ " '" ++ t.value ++ "'" else t.kind.text

/-- Whether the token is the name `word`, which some places of the grammar give a meaning of its
own. -/
def isWord (t : Token) (word : String) : Bool := t.kind == .name && t.value == word

end Token

inductive SyntaxCause where
  | unexpectedCharacter (c : Char)
  | singleQuote
  | digitAfterZero (c : Char)
  | digitExpected (found : Option Char)
  | unterminatedString
  | badEscape (sequence : String)
  | badUnicodeEscape (sequence : String)
  | expected (kind : TokenKind) (found : Token)
  | expectedWord (word : String) (found : Token)
  | unexpected (found : Token)
  | variableInConstant (name : String)
  | reservedEnumValue (found : Token)
  | describedShorthand
  | describedOther
deriving DecidableEq

namespace SyntaxCause

/-- Upper-case hexadecimal digits, at least four of them. -/
def codePoint (n : Nat) : String :=
  let digits := (Nat.toDigits 16 n).map Char.toUpper
  String.ofList (List.replicate (4 - digits.length) '0' ++ digits)

/-- A character as messages show it: printable ASCII in quotes, all else by its code point, and
nothing at all as the end of the text. -/
def shown : Option Char → String
  | none => "<EOF>"
  | some c =>
    if 0x20 ≤ c.toNat ∧ c.toNat ≤ 0x7e then "'" ++ String.singleton c ++ "'"
    else "U+" ++ codePoint c.toNat

def message : SyntaxCause → String
  | unexpectedCharacter c => "Unexpected character: " ++ shown (some c) ++ "."
  | singleQuote =>
    "Unexpected single quote character ('), did you mean to use a double quote (\")?"
  | digitAfterZero c => "Invalid number, unexpected digit after 0: " ++ shown (some c) ++ "."
  | digitExpected c => "Invalid number, expected digit but got: " ++ shown c ++ "."
  | unterminatedString => "Unterminated string."
  | badEscape s => "Invalid character escape sequence: '" ++ s ++ "'."
  | badUnicodeEscape s => "Invalid Unicode escape sequence: '" ++ s ++ "'."
  | expected kind found => "Expected " ++ kind.text ++ ", found " ++ found.text ++ "."
  | expectedWord word found => "Expected '" ++ word ++ "', found " ++ found.text ++ "."
  | unexpected found => "Unexpected " ++ found.text ++ "."
  | variableInConstant name => "Unexpected variable '$" ++ name ++ "' in constant value."
  | reservedEnumValue found =>
    found.text ++ " is reserved and cannot be used for an enum value."
  | describedShorthand =>
    "Unexpected description, descriptions are not supported on shorthand queries."
  | describedOther =>
    "Unexpected description, only GraphQL definitions support descriptions."

end SyntaxCause

structure SyntaxFault where
  position : Position
  cause : SyntaxCause
deriving DecidableEq

def SyntaxFault.message (fault : SyntaxFault) : String := "Syntax Error: " ++ fault.cause.message

end TypeTrace
