import TypeTrace.Yaml.Fault

/-!
# Reading characters

A cursor stands in a text: it has what is still to be read and the mark of the place. The steps that
readers of tokens are written with move it on.
-/

namespace TypeTrace.Yaml

/-- A place in a text with all that follows it. -/
structure Cursor where
  rest : List Char
  mark : Mark

namespace Cursor

def ofText (text : String) : Cursor := ⟨text.toList, Mark.start⟩

def peekAt (c : Cursor) (n : Nat) : Char := c.rest.getD n endMark

def peek (c : Cursor) : Char := c.peekAt 0

def advance (c : Cursor) : (n : Nat) → Cursor
  | 0 => c
  | n + 1 =>
    match c.rest with
    | [] => c
    | ch :: rest => advance ⟨rest, c.mark.after ch rest⟩ n

/-- Whether one of the two marks between documents, followed by space, is at the cursor. -/
def atSeparator (c : Cursor) : Bool :=
  let three := c.rest.take 3
  (three == ['-', '-', '-'] || three == ['.', '.', '.']) && isSpace (c.peekAt 3)

end Cursor

abbrev Scan := StateT Cursor (Except Fault)

namespace Scan

def peek : Scan Char := return (← get).peek

def peekAt (n : Nat) : Scan Char := return (← get).peekAt n

def mark : Scan Mark := return (← get).mark

def remaining : Scan Nat := return (← get).rest.length

def advance (n : Nat) : Scan Unit := modify (·.advance n)

def fail {α : Type} (context : Context) (start : Mark) (problem : Problem) : Scan α := do
  throw (.malformed (.wrong (some (context, some start)) problem (← mark)))

def failExpecting {α : Type} (context : Context) (start : Mark) (wanted : Wanted) : Scan α := do
  fail context start (.expected wanted (← peek))

def takeWhile (p : Char → Bool) : Scan (List Char) := do
  let cs := (← get).rest.takeWhile p
  advance cs.length
  return cs

def skipWhile (p : Char → Bool) : Scan Unit := do
  let _ ← takeWhile p

/-- Reads a line end if there is one: the character that it counts as. -/
def lineBreak? : Scan (Option Char) := do
  let c ← peek
  if !isBreak c then return none
  advance (if c = '\r' ∧ (← peekAt 1) = '\n' then 2 else 1)
  return some (if c = '\u2028' ∨ c = '\u2029' then c else '\n')

/-- Passes over blanks and a comment, up to the end of the line. -/
def skipComment : Scan Unit := do
  skipWhile (· == ' ')
  if (← peek) = '#' then skipWhile fun c => !endsLine c

/-- Passes over the rest of a line, which may hold a comment and nothing else. -/
def endLine (context : Context) (start : Mark) : Scan Unit := do
  skipComment
  if !endsLine (← peek) then failExpecting context start .commentOrBreak
  let _ ← lineBreak?

end Scan

end TypeTrace.Yaml
