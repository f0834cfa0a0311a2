import TypeTrace.Text.Hex
import TypeTrace.Token

/-!
# Quoted text in a document

A string stands between single double quotes and may hold escapes. A block string stands between
triple double quotes, may span lines and loses the indentation that its lines share. Both readers
take the characters behind the opening quotes and count what they consume.
-/

namespace TypeTrace

/-- Where, counted in characters, and why a token cannot be read. -/
abbrev LexicalFault := Nat × SyntaxCause

namespace Escape

def simple? : Char → Option Char
  | '"' => some '"'
  | '/' => some '/'
  | '\\' => some '\\'
  | 'b' => some '\x08'
  | 'f' => some '\x0c'
  | 'n' => some '\n'
  | 'r' => some '\r'
  | 't' => some '\t'
  | _ => none

/-- A code point in braces, from its digits on: `value` holds the digits read so far and `length`
counts all characters of the sequence so far. A sequence has at most `room` more characters. The
answer is the character, if there is one, and the length of what was read. -/
def braced (value length : Nat) : (room : Nat) → List Char → Option Char × Nat
  | 0, _ => (none, length)
  | _, [] => (none, length)
  | room + 1, c :: cs =>
    if c = '\x7d' then
      (if 5 ≤ length + 1 ∧ Text.isScalar value then some (Char.ofNat value) else none, length + 1)
    else
      match Text.hexDigit? c with
      | none => (none, length + 1)
      | some d => braced (value * 16 + d) (length + 1) room cs

/-- Reads an escape at its backslash: the character that it means and the number of characters
that it takes. -/
def read (cs : List Char) : Except SyntaxCause (Char × Nat) :=
  match cs with
  | _ :: 'u' :: '\x7b' :: rest =>
    match braced 0 3 9 rest with
    | (some c, n) => .ok (c, n)
    | (none, n) => .error (.badUnicodeEscape (String.ofList (cs.take n)))
  | _ :: 'u' :: rest =>
    match Text.fourDigits? rest with
    | none => .error (.badUnicodeEscape (String.ofList (cs.take 6)))
    | some lead =>
      if Text.isScalar lead then .ok (Char.ofNat lead, 6)
      else
        match rest.drop 4 with
        | '\\' :: 'u' :: more =>
          match Text.fourDigits? more with
          | some trail =>
            if Text.isLead lead ∧ Text.isTrail trail then
              .ok (Text.combine lead trail, 12)
            else .error (.badUnicodeEscape (String.ofList (cs.take 6)))
          | none => .error (.badUnicodeEscape (String.ofList (cs.take 6)))
        | _ => .error (.badUnicodeEscape (String.ofList (cs.take 6)))
  | _ :: c :: _ =>
    match simple? c with
    | some value => .ok (value, 2)
    | none => .error (.badEscape (String.ofList (cs.take 2)))
  | _ => .error (.badEscape (String.ofList (cs.take 2)))

end Escape

/-- Reads a string behind its opening quote. `skip` characters still belong to an escape that has
been read, `length` counts the characters of the token so far and `value` holds, last first, the
text so far. A string ends on its own line. -/
def quotedString (value : List Char) (length : Nat) :
    (skip : Nat) → List Char → Except LexicalFault (String × Nat)
  | _, [] => .error (length, .unterminatedString)
  | skip + 1, _ :: cs => quotedString value (length + 1) skip cs
  | 0, c :: cs =>
    if c = '"' then .ok (String.ofList value.reverse, length + 1)
    else if c = '\n' ∨ c = '\r' then .error (length, .unterminatedString)
    else if c = '\\' then
      match Escape.read (c :: cs) with
      | .ok (meant, taken) => quotedString (meant :: value) (length + 1) (taken - 1) cs
      | .error cause => .error (length, cause)
    else quotedString (c :: value) (length + 1) 0 cs

namespace BlockText

def indent (line : List Char) : Nat := (line.takeWhile fun c => c = ' ' || c = '\t').length

def isBlank (line : List Char) : Bool := indent line == line.length

def commonIndent (lines : List (List Char)) : Option Nat :=
  ((lines.filter fun line => !isBlank line).map indent).min?

/-- A block string's text: every line but the first loses the common indentation of the lines
below the first, and blank lines at both ends go. -/
def dedent (lines : List (List Char)) : List (List Char) :=
  match lines with
  | [] => []
  | first :: others =>
    let cut := match commonIndent others with
      | some n => others.map (List.drop n)
      | none => others
    let kept := (first :: cut).dropWhile isBlank
    (kept.reverse.dropWhile isBlank).reverse

def join (lines : List (List Char)) : String :=
  String.ofList (List.intercalate ['\n'] lines)

end BlockText

/-- Reads a block string behind its opening quotes; `lines` and `line` hold, last first, the lines
read so far and the characters of the current one. Only the closing quotes can be escaped. -/
def blockString (lines : List (List Char)) (line : List Char) (length : Nat) :
    List Char → Except LexicalFault (String × Nat)
  | [] => .error (length, .unterminatedString)
  | '"' :: '"' :: '"' :: _ =>
    .ok (BlockText.join (BlockText.dedent (line.reverse :: lines).reverse), length + 3)
  | '\\' :: '"' :: '"' :: '"' :: cs =>
    blockString lines ('"' :: '"' :: '"' :: line) (length + 4) cs
  | '\r' :: '\n' :: cs => blockString (line.reverse :: lines) [] (length + 2) cs
  | c :: cs =>
    if c = '\n' ∨ c = '\r' then blockString (line.reverse :: lines) [] (length + 1) cs
    else blockString lines (c :: line) (length + 1) cs

end TypeTrace
