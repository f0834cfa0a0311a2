/-!
# Marks

A mark is a place in a text, counted from zero: how many characters are before it, on which line it
is and in which column. The classes of characters that decide where lines end are here too.
-/

namespace TypeTrace.Yaml

structure Mark where
  index : Nat
  line : Nat
  column : Nat
deriving DecidableEq, Inhabited

def isBreak (c : Char) : Bool :=
  c == '\r' || c == '\n' || c == '\u0085' || c == '\u2028' || c == '\u2029'

/-- What stands for the character behind the end of a text. No text holds it. -/
def endMark : Char := '\x00'

def endsLine (c : Char) : Bool := c == endMark || isBreak c

def endsWord (c : Char) : Bool := c == ' ' || endsLine c

def isSpace (c : Char) : Bool := c == '\t' || endsWord c

namespace Mark

def start : Mark := ⟨0, 0, 0⟩

/-- The place behind the character `c`, of which `rest` is what follows. A carriage return before a
line feed does not end the line, and a byte order mark takes no column. -/
def after (m : Mark) (c : Char) (rest : List Char) : Mark :=
  if c = '\r' ∧ rest.head? = some '\n' then ⟨m.index + 1, m.line, m.column + 1⟩
  else if isBreak c then ⟨m.index + 1, m.line + 1, 0⟩
  else if c = '\ufeff' then { m with index := m.index + 1 }
  else ⟨m.index + 1, m.line, m.column + 1⟩

/-- The place behind a character that ends no line. -/
def next (m : Mark) : Mark := ⟨m.index + 1, m.line, m.column + 1⟩

/-- How many characters of a line are looked at on either side of a place. -/
def nearby : Nat := 37

/-- How many characters of a longer line are shown on either side of a place. -/
def shown : Nat := 32

def snippet (text : String) (m : Mark) : String :=
  let cs := text.toList
  let before := ((cs.take m.index).reverse.takeWhile fun c => !endsLine c).take nearby
  let behind := ((cs.drop m.index).takeWhile fun c => !endsLine c).take nearby
  let cut := " ... "
  let (head, before) := if before.length < nearby then ("", before) else (cut, before.take shown)
  let (tail, behind) := if behind.length < nearby then ("", behind) else (cut, behind.take shown)
  "    " ++ head ++ String.ofList before.reverse ++ String.ofList behind ++ tail ++ "\n"
    ++ String.ofList (List.replicate (4 + head.length + before.length) ' ') ++ "^"

def text (source : String) (m : Mark) : String :=
  "  in \"<unicode string>\", line " ++ toString (m.line + 1) ++ ", column " ++ toString (m.column + 1)
    ++ ":\n" ++ snippet source m

end Mark

end TypeTrace.Yaml
