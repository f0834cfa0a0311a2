import TypeTrace.Yaml.Token.Property

/-!
# From text to YAML tokens

The lexer keeps the indentation of the open block collections and the places where a key may have
begun. A key shows only by the colon behind it: what belongs before it is remembered by its number
and put between the tokens at the end. A text that goes wrong gives the tokens up to where its reader
would notice.
-/

namespace TypeTrace.Yaml

/-- A place where a key may have begun: the number of its first token, whether nothing else than a key
may begin there, and the place. -/
structure KeyStart where
  number : Nat
  required : Bool
  mark : Mark

/-- The state of the lexer: the cursor, the number of open flow collections, the tokens so far, last
first, with their number, the tokens that belong in front of others, the indentation of the open block
collections, and where keys may have begun in which depth of flow collections. -/
structure Lexer where
  cursor : Cursor
  depth : Nat
  tokens : List Token
  count : Nat
  before : List (Nat × List Token)
  indent : Int
  outer : List Int
  keyAllowed : Bool
  keys : List (Nat × KeyStart)

/-- Tokens in order, and what stops them before the end of the text. -/
structure TokenRun where
  tokens : List Token
  fault : Option Fault

namespace Lexer

def ofText (text : String) : Lexer := ⟨Cursor.ofText text, 0, [], 0, [], -1, [], true, []⟩

abbrev Step := StateT Lexer (Except Fault)

def scan {α : Type} (read : Scan α) : Step α := do
  let l ← get
  let (a, cursor) ← read l.cursor
  set { l with cursor := cursor }
  return a

def mark : Step Mark := return (← get).cursor.mark

def fail {α : Type} (context : Option (Context × Option Mark)) (problem : Problem) : Step α := do
  throw (.malformed (.wrong context problem (← mark)))

def push (sort : TokenSort) (mark : Mark) : Step Unit :=
  modify fun l => { l with tokens := ⟨sort, mark⟩ :: l.tokens, count := l.count + 1 }

def inFlow : Step Bool := return (← get).depth ≠ 0

def allowKey (allowed : Bool) : Step Unit := modify fun l => { l with keyAllowed := allowed }

/-! ### Keys -/

/-- Forgets the key that may have begun at a depth. It must not be required. -/
def dropKey (depth : Nat) (key : KeyStart) : Step Unit := do
  if key.required then fail (some (.simpleKey, some key.mark)) .noColon
  modify fun l => { l with keys := l.keys.filter fun (d, _) => d ≠ depth }

def longestKey : Nat := 1024

/-- Forgets keys that cannot be keys any more: a key is on one line and not too long. -/
def dropStaleKeys : Step Unit := do
  let l ← get
  for (depth, key) in l.keys do
    if key.mark.line ≠ l.cursor.mark.line ∨ l.cursor.mark.index > key.mark.index + longestKey then
      dropKey depth key

def dropCurrentKey : Step Unit := do
  let l ← get
  match l.keys.lookup l.depth with
  | some key => dropKey l.depth key
  | none => pure ()

def rememberKey : Step Unit := do
  if (← get).keyAllowed then
    dropCurrentKey
    let l ← get
    let place := l.cursor.mark
    let key : KeyStart := ⟨l.count, l.depth = 0 ∧ l.indent = place.column, place⟩
    set { l with keys := l.keys ++ [(l.depth, key)] }

/-! ### Indentation -/

def closeBlocks (column : Int) : (fuel : Nat) → Step Unit
  | 0 => pure ()
  | fuel + 1 => do
    let l ← get
    if l.depth = 0 ∧ column < l.indent then
      push .blockEnd l.cursor.mark
      modify fun l => { l with indent := l.outer.headD (-1), outer := l.outer.tail }
      closeBlocks column fuel

def unwind (column : Int) : Step Unit := do
  closeBlocks column (← get).outer.length

/-- Opens a level of indentation at a column, unless it is open already. -/
def openBlock (column : Nat) : Step Bool := do
  let l ← get
  if l.indent < column then
    set { l with indent := (column : Int), outer := l.indent :: l.outer }
    return true
  else return false

/-! ### Tokens -/

def skipSpace : (fuel : Nat) → Step Unit
  | 0 => pure ()
  | fuel + 1 => do
    scan Scan.skipComment
    match ← scan Scan.lineBreak? with
    | some _ =>
      if !(← inFlow) then allowKey true
      skipSpace fuel
    | none => pure ()

def punctuation (sort : TokenSort) (length : Nat) : Step Unit := do
  push sort (← mark)
  scan (Scan.advance length)

def endText : Step Unit := do
  unwind (-1)
  dropCurrentKey
  modify fun l => { l with keyAllowed := false, keys := [] }
  push .streamEnd (← mark)

/-- What stands between documents: nothing of a document is open there. -/
def betweenDocuments (token : Step Unit) : Step Unit := do
  unwind (-1)
  dropCurrentKey
  allowKey false
  token

def directive : Step Unit := do
  let start ← mark
  push (.directive (← scan Scan.directive)) start

def openFlow (sort : TokenSort) : Step Unit := do
  rememberKey
  modify fun l => { l with depth := l.depth + 1, keyAllowed := true }
  punctuation sort 1

def closeFlow (sort : TokenSort) : Step Unit := do
  dropCurrentKey
  modify fun l => { l with depth := l.depth - 1, keyAllowed := false }
  punctuation sort 1

def flowEntry : Step Unit := do
  allowKey true
  dropCurrentKey
  punctuation .flowEntry 1

/-- The mark in front of an item or a key of a block collection, which it may open. -/
def blockIndicator (opening : TokenSort) (problem : Problem) : Step Unit := do
  if !(← inFlow) then
    if !(← get).keyAllowed then fail none problem
    if ← openBlock (← mark).column then push opening (← mark)

def blockEntry : Step Unit := do
  blockIndicator .blockSequenceStart .entryNotAllowed
  allowKey true
  dropCurrentKey
  punctuation .blockEntry 1

def writtenKey : Step Unit := do
  blockIndicator .blockMappingStart .keyNotAllowed
  allowKey !(← inFlow)
  dropCurrentKey
  punctuation (.key true) 1

/-- The mark in front of a value. If a key may have begun it was one, and tokens that say so belong in
front of it. -/
def value : Step Unit := do
  let l ← get
  match l.keys.lookup l.depth with
  | some key =>
    modify fun l => { l with keys := l.keys.filter fun (d, _) => d ≠ l.depth }
    let opens ← if ← inFlow then pure false else openBlock key.mark.column
    let opening := if opens then [(⟨.blockMappingStart, key.mark⟩ : Token)] else []
    modify fun l =>
      { l with before := (key.number, opening ++ [⟨.key false, key.mark⟩]) :: l.before }
    allowKey false
  | none =>
    blockIndicator .blockMappingStart .valueNotAllowed
    allowKey !(← inFlow)
    dropCurrentKey
  punctuation .value 1

/-- A token that a key may begin with, and behind which none may begin. -/
def keyLike (token : Scan TokenSort) : Step Unit := do
  rememberKey
  allowKey false
  let start ← mark
  push (← scan token) start

/-- A block scalar. A key may follow it. -/
def blockScalar : Step Unit := do
  allowKey true
  dropCurrentKey
  let start ← mark
  let indent := (← get).indent
  push (.scalar false (← scan (Scan.block indent))) start

/-- A plain scalar. A key may follow it if a line ends behind it. -/
def plainScalar : Step Unit := do
  rememberKey
  let start ← mark
  let indent := (← get).indent
  let (text, crossed) ← scan (Scan.plain (← inFlow) (indent + 1))
  push (.scalar true text) start
  allowKey crossed

def isIndicator (c : Char) : Bool := "-?:,[]\x7b\x7d#&*!|>'\"%@`".toList.contains c

/-- Whether a plain scalar can begin with the character `c`, which `next` follows. -/
def startsPlain (inFlow : Bool) (c next : Char) : Bool :=
  !(isSpace c || isIndicator c)
    || (!isSpace next && (c == '-' || (!inFlow && (c == '?' || c == ':'))))

def token : Step Unit := do
  let l ← get
  let c := l.cursor.peek
  let next := l.cursor.peekAt 1
  let flow := l.depth ≠ 0
  let atStart := l.cursor.mark.column = 0
  if c = endMark then endText
  else if c = '%' ∧ atStart then betweenDocuments directive
  else if c = '-' ∧ atStart ∧ l.cursor.atSeparator then
    betweenDocuments (punctuation .documentStart 3)
  else if c = '.' ∧ atStart ∧ l.cursor.atSeparator then
    betweenDocuments (punctuation .documentEnd 3)
  else if c = '[' then openFlow .flowSequenceStart
  else if c = '\x7b' then openFlow .flowMappingStart
  else if c = ']' then closeFlow .flowSequenceEnd
  else if c = '\x7d' then closeFlow .flowMappingEnd
  else if c = ',' then flowEntry
  else if c = '-' ∧ isSpace next then blockEntry
  else if c = '?' ∧ (flow ∨ isSpace next) then writtenKey
  else if c = ':' ∧ (flow ∨ isSpace next) then value
  else if c = '*' then keyLike (TokenSort.alias <$> Scan.anchorName .alias)
  else if c = '&' then keyLike (TokenSort.anchor <$> Scan.anchorName .anchor)
  else if c = '!' then keyLike Scan.tag
  else if (c = '|' ∨ c = '>') ∧ !flow then blockScalar
  else if c = '\'' ∨ c = '"' then keyLike (TokenSort.scalar false <$> Scan.quoted)
  else if startsPlain flow c next then plainScalar
  else fail (some (.nextToken, none)) (.cannotStart c)

def skipOrderMark : Step Unit := do
  let l ← get
  if l.cursor.mark.index = 0 ∧ l.cursor.peek = '\ufeff' then scan (Scan.advance 1)

def step : Step Unit := do
  skipOrderMark
  skipSpace ((← get).cursor.rest.length + 1)
  dropStaleKeys
  unwind (← mark).column
  token

/-- The number of the first token that a key may yet turn out to begin with, or of the next token. What
goes wrong shows at this token. -/
def undecided (l : Lexer) : Nat := (l.keys.map fun (_, key) => key.number).foldl min l.count

/-- The tokens so far in order, up to a number, with those that belong in front of them. -/
def inOrder (l : Lexer) (limit : Nat) : List Token :=
  let numbered := (l.tokens.reverse.take limit).zipIdx
  numbered.flatMap fun (token, n) => (l.before.lookup n).getD [] ++ [token]

def finished (l : Lexer) : Bool :=
  match l.tokens with
  | ⟨.streamEnd, _⟩ :: _ => true
  | _ => false

/-- Reads tokens up to the end of the text or to a fault. `limit` is the number of the token at which a
fault shows that comes of the last step. -/
def runFrom (l : Lexer) (limit : Nat) : (fuel : Nat) → TokenRun
  | 0 => ⟨l.inOrder l.count, none⟩
  | fuel + 1 =>
    if l.finished then ⟨l.inOrder l.count, none⟩
    else
      match dropStaleKeys l with
      | .error fault => ⟨l.inOrder limit, some fault⟩
      | .ok (_, l) =>
        match step l with
        | .error fault => ⟨l.inOrder l.undecided, some fault⟩
        | .ok (_, next) => runFrom next l.undecided fuel

end Lexer

def isAcceptable (c : Char) : Bool :=
  let n := c.toNat
  c == '\t' || c == '\n' || c == '\r' || c == '\u0085' || (0x20 ≤ n && n ≤ 0x7e)
    || (0xa0 ≤ n && n ≤ 0xd7ff) || (0xe000 ≤ n && n ≤ 0xfffd) || 0x10000 ≤ n

def TokenRun.ofText (text : String) : TokenRun :=
  let cs := text.toList
  match cs.find? fun c => !isAcceptable c with
  | some c => ⟨[], some (.malformed (.unacceptable c (cs.takeWhile isAcceptable).length))⟩
  | none => (Lexer.ofText text).runFrom 0 (cs.length + 2)

end TypeTrace.Yaml
