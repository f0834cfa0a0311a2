import TypeTrace.Token.Strings

/-!
# From text to tokens

The lexer goes through a text once. Blanks, commas, line ends, byte order marks and comments
separate tokens and are dropped. A token that cannot be read ends the stream, and it is reported
only when a reader of the stream gets there.
-/

namespace TypeTrace

/-- Tokens in order. A stream ends with the end of the text, or where no token can be read. -/
inductive TokenStream where
  | finished (position : Position)
  | broken (fault : SyntaxFault)
  | next (token : Token) (rest : TokenStream)
deriving Inhabited

namespace TokenStream

/-- The token in front. Behind the last token stands the end of the text, for good. -/
def current : TokenStream → Except SyntaxFault Token
  | finished p => .ok ⟨.endOfText, "", p⟩
  | broken fault => .error fault
  | next token _ => .ok token

def rest : TokenStream → TokenStream
  | next _ rest => rest
  | other => other

def size : TokenStream → Nat
  | next _ rest => rest.size + 1
  | _ => 0

/-- All tokens before the end, or the fault that stops the stream. -/
def tokens : TokenStream → Except SyntaxFault (List Token)
  | finished _ => .ok []
  | broken fault => .error fault
  | next token rest => (token :: ·) <$> rest.tokens

/-- Puts tokens, last first, in front of a stream. -/
def prepend (stream : TokenStream) (read : List Token) : TokenStream :=
  read.foldl (fun rest token => .next token rest) stream

end TokenStream

/-- A token as the lexer cuts it from a text: its class, its value and its length in characters. -/
structure Lexeme where
  kind : TokenKind
  value : String
  length : Nat

namespace Lexeme

/-- Characters that mean nothing between tokens; comments and line ends come on top. -/
def isBlank (c : Char) : Bool := c == ' ' || c == '\t' || c == ',' || c == '\ufeff'

def isDigit (c : Char) : Bool := '0' ≤ c && c ≤ '9'

def isNameStart (c : Char) : Bool :=
  ('a' ≤ c && c ≤ 'z') || ('A' ≤ c && c ≤ 'Z') || c == '_'

def isNamePart (c : Char) : Bool := isNameStart c || isDigit c

def mark? : Char → Option TokenKind
  | '!' => some .bang
  | '$' => some .dollar
  | '&' => some .amp
  | '(' => some .parenL
  | ')' => some .parenR
  | ':' => some .colon
  | '=' => some .equals
  | '@' => some .at
  | '[' => some .bracketL
  | ']' => some .bracketR
  | '\x7b' => some .braceL
  | '|' => some .pipe
  | '\x7d' => some .braceR
  | _ => none

/-- A run of digits, at least one; `offset` counts the characters of the number before it. -/
def digits (offset : Nat) (cs : List Char) : Except LexicalFault (List Char × List Char) :=
  match cs with
  | c :: _ => if isDigit c then .ok (cs.span isDigit) else .error (offset, .digitExpected (some c))
  | [] => .error (offset, .digitExpected none)

/-- The digits before the point: a leading zero stands alone. -/
def wholePart (offset : Nat) (cs : List Char) : Except LexicalFault (List Char × List Char) :=
  match cs with
  | '0' :: rest =>
    match rest.head? with
    | some c => if isDigit c then .error (offset + 1, .digitAfterZero c) else .ok (['0'], rest)
    | none => .ok (['0'], rest)
  | _ => digits offset cs

def fractionPart (offset : Nat) (cs : List Char) : Except LexicalFault (List Char × List Char) :=
  match cs with
  | '.' :: rest => do
    let (ds, rest) ← digits (offset + 1) rest
    .ok ('.' :: ds, rest)
  | _ => .ok ([], cs)

def exponentPart (offset : Nat) (cs : List Char) : Except LexicalFault (List Char × List Char) :=
  match cs with
  | [] => .ok ([], [])
  | e :: rest =>
    if e = 'e' ∨ e = 'E' then
      match rest with
      | s :: rest' =>
        if s = '+' ∨ s = '-' then do
          let (ds, rest) ← digits (offset + 2) rest'
          .ok (e :: s :: ds, rest)
        else do
          let (ds, rest) ← digits (offset + 1) rest
          .ok (e :: ds, rest)
      | [] => .error (offset + 1, .digitExpected none)
    else .ok ([], cs)

/-- Reads a number. Neither a point nor a name may follow it. -/
def number (cs : List Char) : Except LexicalFault Lexeme := do
  let (sign, rest) := match cs with
    | '-' :: rest => (['-'], rest)
    | _ => ([], cs)
  let (whole, rest) ← wholePart sign.length rest
  let before := sign ++ whole
  let (fraction, rest) ← fractionPart before.length rest
  let (exponent, rest) ← exponentPart (before.length + fraction.length) rest
  let text := before ++ fraction ++ exponent
  match rest.head? with
  | some c =>
    if c = '.' ∨ isNameStart c then .error (text.length, .digitExpected (some c))
    else .ok ⟨if fraction.isEmpty && exponent.isEmpty then .int else .float,
      String.ofList text, text.length⟩
  | none =>
    .ok ⟨if fraction.isEmpty && exponent.isEmpty then .int else .float,
      String.ofList text, text.length⟩

def read : List Char → Except LexicalFault Lexeme
  | [] => .error (0, .unterminatedString)
  | '.' :: '.' :: '.' :: _ => .ok ⟨.spread, "", 3⟩
  | '"' :: '"' :: '"' :: rest => do
    let (value, length) ← blockString [] [] 3 rest
    .ok ⟨.blockString, value, length⟩
  | '"' :: rest => do
    let (value, length) ← quotedString [] 1 0 rest
    .ok ⟨.string, value, length⟩
  | c :: cs =>
    match mark? c with
    | some kind => .ok ⟨kind, "", 1⟩
    | none =>
      if isNameStart c then
        let name := (c :: cs).takeWhile isNamePart
        .ok ⟨.name, String.ofList name, name.length⟩
      else if isDigit c ∨ c = '-' then number (c :: cs)
      else if c = '\'' then .error (0, .singleQuote)
      else .error (0, .unexpectedCharacter c)

end Lexeme

def Position.advance (p : Position) : (n : Nat) → List Char → Position
  | n + 1, c :: cs => (p.after c cs).advance n cs
  | _, _ => p

namespace TokenStream

/-- The lexer, one character at a time. `read` holds, last first, the tokens so far; the next
`skip` characters belong to the last of them; `inComment` holds until the line ends. -/
def scan (read : List Token) (skip : Nat) (inComment : Bool) (p : Position) :
    List Char → TokenStream
  | [] => (TokenStream.finished p).prepend read
  | c :: cs =>
    match skip with
    | skip + 1 => scan read skip inComment (p.after c cs) cs
    | 0 =>
      if c = '\n' ∨ c = '\r' then scan read 0 false (p.after c cs) cs
      else if inComment ∨ c = '#' then scan read 0 true (p.after c cs) cs
      else if Lexeme.isBlank c then scan read 0 false (p.after c cs) cs
      else
        match Lexeme.read (c :: cs) with
        | .ok lexeme =>
          scan (⟨lexeme.kind, lexeme.value, p⟩ :: read) (lexeme.length - 1) false
            (p.after c cs) cs
        | .error (offset, cause) =>
          (TokenStream.broken ⟨p.advance offset (c :: cs), cause⟩).prepend read

def ofText (text : String) : TokenStream := scan [] 0 false Position.start text.toList

end TokenStream

end TypeTrace
