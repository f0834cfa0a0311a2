import TypeTrace.Node
import TypeTrace.Token.Lexer

/-!
# Reading tokens

The steps that the grammar is written with. A reader looks at the token in front, takes it, or
fails there. Taking a token makes sure of the next one, so that a text which stops being tokens is
reported before anything that the grammar finds behind it.
-/

namespace TypeTrace

abbrev Reader := StateT TokenStream (Except SyntaxFault)

namespace Reader

variable {α : Type}

def failAt (token : Token) (cause : SyntaxCause) : Reader α :=
  throw ⟨token.position, cause⟩

def peek : Reader Token := do (← get).current

def peekSecond : Reader Token := do (← get).rest.current

def sees (kind : TokenKind) : Reader Bool := do return (← peek).kind == kind

def advance : Reader Unit := do
  let rest := (← get).rest
  let _ ← rest.current
  set rest

def unexpected : Reader α := do
  let token ← peek
  failAt token (.unexpected token)

def expect (kind : TokenKind) : Reader Token := do
  let token ← peek
  if token.kind = kind then
    advance
    return token
  else failAt token (.expected kind token)

def accept (kind : TokenKind) : Reader Bool := do
  if ← sees kind then
    advance
    return true
  else return false

def expectWord (word : String) : Reader Unit := do
  let token ← peek
  if token.isWord word then advance else failAt token (.expectedWord word token)

def acceptWord (word : String) : Reader Bool := do
  let token ← peek
  if token.isWord word then
    advance
    return true
  else return false

/-- Items up to a closing mark, at least one; `read` holds, last first, those read already. At
most `fuel` items are read. -/
def someUntil (close : TokenKind) (item : Reader α) (read : List α) : (fuel : Nat) → Reader (List α)
  | 0 => unexpected
  | fuel + 1 => do
    let a ← item
    if ← accept close then return (a :: read).reverse
    else someUntil close item (a :: read) fuel

def nonempty (opening : TokenKind) (item : Reader α) (close : TokenKind) (fuel : Nat) :
    Reader (List α) := do
  let _ ← expect opening
  someUntil close item [] fuel

/-- Items between marks, none if the opening mark is not there and else at least one. -/
def optional (opening : TokenKind) (item : Reader α) (close : TokenKind) (fuel : Nat) :
    Reader (List α) := do
  if ← accept opening then someUntil close item [] fuel else return []

def any (opening : TokenKind) (item : Reader α) (close : TokenKind) (fuel : Nat) :
    Reader (List α) := do
  let _ ← expect opening
  if ← accept close then return [] else someUntil close item [] fuel

/-- Items while the mark that parts them is found; `read` holds, last first, those read already. -/
def parted (mark : TokenKind) (item : Reader α) (read : List α) : (fuel : Nat) → Reader (List α)
  | 0 => unexpected
  | fuel + 1 => do
    let a ← item
    if ← accept mark then parted mark item (a :: read) fuel
    else return (a :: read).reverse

/-- Items parted by a mark, at least one. The mark may also stand before the first item. -/
def separated (mark : TokenKind) (item : Reader α) (fuel : Nat) : Reader (List α) := do
  let _ ← accept mark
  parted mark item [] fuel

/-- Items while a mark is in front that each of them begins with; `read` holds, last first, those
read already. -/
def repeated (mark : TokenKind) (item : Reader α) (read : List α) : (fuel : Nat) → Reader (List α)
  | 0 => return read.reverse
  | fuel + 1 => do
    if ← sees mark then
      let a ← item
      Reader.repeated mark item (a :: read) fuel
    else return read.reverse

end Reader

namespace Node

def leaf (kind : Kind) (start : Token) (datum : Datum) : Node :=
  ⟨⟨kind, some start.position, datum⟩, .nil⟩

def branch (kind : Kind) (start : Token) (children : Forest) : Node :=
  ⟨⟨kind, some start.position, .none⟩, children⟩

end Node

end TypeTrace
