import TypeTrace.Yaml.Cursor

/-!
# Reading scalars

A scalar is a text: plain, in quotes, or as a block of lines. Line ends within plain and quoted
scalars are folded: one of them is a blank, and of several all but the first are kept.
-/

namespace TypeTrace.Yaml.Scan

def isFlowMark (c : Char) : Bool := c == ',' || c == '[' || c == ']' || c == '\x7b' || c == '\x7d'

/-- The folded form of line ends: of the first, and of those of the empty lines behind it. -/
def foldBreaks (first : Char) (others : List Char) : List Char :=
  if first ≠ '\n' then first :: others else if others.isEmpty then [' '] else others

/-! ### Plain scalars -/

/-- What of a plain scalar is at the beginning of a text, up to the next space. -/
def plainRun (inFlow : Bool) : List Char → List Char
  | [] => []
  | c :: cs =>
    let next := cs.headD endMark
    if isSpace c || (inFlow && (c == '?' || isFlowMark c))
      || (c == ':' && (isSpace next || (inFlow && isFlowMark next)))
    then [] else c :: plainRun inFlow cs

def emptyLines (read : List Char) : (fuel : Nat) → Scan (Option (List Char))
  | 0 => return some read.reverse
  | fuel + 1 => do
    if (← get).atSeparator then return none
    skipWhile (· == ' ')
    match ← lineBreak? with
    | some c => emptyLines (c :: read) fuel
    | none => return some read.reverse

/-- The space within a plain scalar as it counts there, and whether a line ended in it. Nothing
counts before a mark between documents. -/
def plainSpace : Scan (List Char × Bool) := do
  let blanks ← takeWhile (· == ' ')
  match ← lineBreak? with
  | none => return (blanks, false)
  | some first =>
    match ← emptyLines [] (← remaining) with
    | none => return ([], true)
    | some others => return (foldBreaks first others, true)

/-- Reads a plain scalar piece by piece. `read` holds, last first, what is read already, `space` the
space behind it, and `crossed` says whether a line ended in that space. -/
def plainFrom (inFlow : Bool) (indent : Int) (read space : List Char) (crossed : Bool) :
    (fuel : Nat) → Scan (String × Bool)
  | 0 => return (String.ofList read.reverse, crossed)
  | fuel + 1 => do
    let rest := (← get).rest
    let run := if rest.head? = some '#' then [] else plainRun inFlow rest
    if run.isEmpty then return (String.ofList read.reverse, crossed)
    advance run.length
    let read := run.reverse ++ space.reverse ++ read
    let (space, crossed) ← plainSpace
    if space.isEmpty || (← peek) = '#' || (!inFlow && (← mark).column < indent) then
      return (String.ofList read.reverse, crossed)
    plainFrom inFlow indent read space crossed fuel

/-- Reads a plain scalar, of which all lines but the first have to be indented. Says whether a line
ended behind it. -/
def plain (inFlow : Bool) (indent : Int) : Scan (String × Bool) := do
  plainFrom inFlow indent [] [] false (← remaining)

/-! ### Quoted scalars -/

def escapes : List (Char × Char) :=
  [('0', '\x00'), ('a', '\x07'), ('b', '\x08'), ('t', '\t'), ('\t', '\t'), ('n', '\n'),
   ('v', '\x0b'), ('f', '\x0c'), ('r', '\r'), ('e', '\x1b'), (' ', ' '), ('"', '"'), ('\\', '\\'),
   ('/', '/'), ('N', '\u0085'), ('_', '\u00a0'), ('L', '\u2028'), ('P', '\u2029')]

def escapeLengths : List (Char × Nat) := [('x', 2), ('u', 4), ('U', 8)]

/-- The character of a code point. The code point of half a pair is no character, and a text here has
none but characters: U+FFFD stands for it, and what would come of the half itself is left open. -/
def charOf (n : Nat) : Except Fault Char :=
  if n ≤ 0x10ffff then .ok (if 0xd800 ≤ n ∧ n ≤ 0xdfff then '\ufffd' else Char.ofNat n)
  else .error (.badValue .codePoint)

def hexNumber (context : Context) (start : Mark) (wanted : Wanted) (digits : Nat) : Scan Nat := do
  let cs := (List.range digits).map (← get).peekAt
  match cs.find? fun c => (Text.hexDigit? c).isNone with
  | some c => fail context start (.expected wanted c)
  | none =>
    advance digits
    return cs.foldl (fun n c => n * 16 + (Text.hexDigit? c).getD 0) 0

def quotedBreaks (start : Mark) (read : List Char) : (fuel : Nat) → Scan (List Char)
  | 0 => return read.reverse
  | fuel + 1 => do
    if (← get).atSeparator then fail .quoted start .documentSeparator
    skipWhile fun c => c == ' ' || c == '\t'
    match ← lineBreak? with
    | some c => quotedBreaks start (c :: read) fuel
    | none => return read.reverse

def quotedSpace (start : Mark) : Scan (List Char) := do
  let blanks ← takeWhile fun c => c == ' ' || c == '\t'
  if (← peek) = endMark then fail .quoted start .endOfText
  match ← lineBreak? with
  | none => return blanks
  | some first => return foldBreaks first (← quotedBreaks start [] (← remaining))

def escaped (start : Mark) : Scan (List Char) := do
  let c ← peek
  match escapes.lookup c, escapeLengths.lookup c with
  | some meant, _ =>
    advance 1
    return [meant]
  | none, some digits =>
    advance 1
    let n ← hexNumber .doubleQuoted start (.escape digits) digits
    return [← charOf n]
  | none, none =>
    match ← lineBreak? with
    | some _ => quotedBreaks start [] (← remaining)
    | none => fail .doubleQuoted start (.unknownEscape c)

/-- Reads a quoted scalar up to its closing quote; `read` holds, last first, what is read already. -/
def quotedFrom (quote : Char) (start : Mark) (read : List Char) : (fuel : Nat) → Scan String
  | 0 => return String.ofList read.reverse
  | fuel + 1 => do
    let c ← peek
    if isSpace c then
      let space ← quotedSpace start
      quotedFrom quote start (space.reverse ++ read) fuel
    else if c = quote then
      if quote = '\'' ∧ (← peekAt 1) = '\'' then
        advance 2
        quotedFrom quote start ('\'' :: read) fuel
      else
        advance 1
        return String.ofList read.reverse
    else if quote = '"' ∧ c = '\\' then
      advance 1
      let meant ← escaped start
      quotedFrom quote start (meant.reverse ++ read) fuel
    else
      advance 1
      quotedFrom quote start (c :: read) fuel

def quoted : Scan String := do
  let start ← mark
  let quote ← peek
  advance 1
  quotedFrom quote start [] ((← remaining) + 1)

/-! ### Block scalars -/

/-- What becomes of the line ends behind the last line of a block: one is kept, none, or all. -/
inductive Chomping where
  | clip | strip | keep
deriving DecidableEq

def chomping? (c : Char) : Option Chomping :=
  if c = '+' then some .keep else if c = '-' then some .strip else none

def chomping : Scan (Option Chomping) := do
  let sign := chomping? (← peek)
  if sign.isSome then advance 1
  return sign

def indentation (start : Mark) : Scan (Option Nat) := do
  let c ← peek
  if '0' ≤ c ∧ c ≤ '9' then
    if c = '0' then fail .blockScalar start .zeroIndentation
    advance 1
    return some (c.toNat - '0'.toNat)
  else return none

def indicators (start : Mark) : Scan (Chomping × Option Nat) := do
  let first ← chomping
  let indent ← indentation start
  let second ← if first.isNone && indent.isSome then chomping else pure none
  if !endsWord (← peek) then failExpecting .blockScalar start .indicators
  return (((first.or second).getD .clip), indent)

/-- Passes over blanks up to a column and over empty lines; gives the ends of the empty lines. -/
def blockBreaks (indent : Nat) (read : List Char) : (fuel : Nat) → Scan (List Char)
  | 0 => return read.reverse
  | fuel + 1 => do
    let blanks := (← get).rest.takeWhile (· == ' ')
    advance (min blanks.length (indent - (← mark).column))
    match ← lineBreak? with
    | some c => blockBreaks indent (c :: read) fuel
    | none => return read.reverse

/-- Passes over empty lines at the beginning of a block; gives their ends and the largest column. -/
def leadingBreaks (widest : Nat) (read : List Char) : (fuel : Nat) → Scan (List Char × Nat)
  | 0 => return (read.reverse, widest)
  | fuel + 1 => do
    let blanks ← takeWhile (· == ' ')
    let column := (← mark).column
    let widest := if blanks.isEmpty then widest else max widest column
    match ← lineBreak? with
    | some c => leadingBreaks widest (c :: read) fuel
    | none => return (read.reverse, widest)

/-- Reads the lines of a block. `read` holds, last first, what is read already, `breaks` the ends of
the empty lines before the cursor. Gives the text, the end of its last line, and the ends of the empty
lines behind it. -/
def blockLines (folded : Bool) (indent : Nat) (read breaks : List Char) (last : List Char) :
    (fuel : Nat) → Scan (List Char × List Char × List Char)
  | 0 => return (read, last, breaks)
  | fuel + 1 => do
    if (← mark).column ≠ indent ∨ (← peek) = endMark then return (read, last, breaks)
    let c ← peek
    let indented := c = ' ' ∨ c = '\t'
    let line ← takeWhile fun c => !endsLine c
    let last := (← lineBreak?).toList
    let read := line.reverse ++ breaks.reverse ++ read
    let breaks ← blockBreaks indent [] (← remaining)
    if (← mark).column ≠ indent ∨ (← peek) = endMark then return (read, last, breaks)
    let next ← peek
    let joint :=
      if folded && last == ['\n'] && !indented && !(next == ' ' || next == '\t') then
        if breaks.isEmpty then [' '] else []
      else last
    blockLines folded indent (joint ++ read) breaks last fuel

def block (outer : Int) : Scan String := do
  let start ← mark
  let folded := (← peek) = '>'
  advance 1
  let (chomping, increment) ← indicators start
  endLine .blockScalar start
  let least := (max 1 (outer + 1)).toNat
  let (breaks, indent) ← match increment with
    | some n => do
      let indent := least + n - 1
      pure (← blockBreaks indent [] (← remaining), indent)
    | none => do
      let (breaks, widest) ← leadingBreaks 0 [] (← remaining)
      pure (breaks, max least widest)
  let (read, last, breaks) ← blockLines folded indent [] breaks [] (← remaining)
  let tail := match chomping with
    | .strip => []
    | .clip => last
    | .keep => last ++ breaks
  return String.ofList (read.reverse ++ tail)

end TypeTrace.Yaml.Scan
