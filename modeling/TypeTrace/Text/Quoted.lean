import TypeTrace.Text.Hex
import TypeTrace.Text.Printable

/-!
# Quoted text in messages

A text in a message stands in single quotes, or in double quotes if it holds a single quote and no
double one. A backslash introduces what cannot stand for itself: itself, the quote, line ends and
tabs, and by their code points all characters that are not printable.
-/

namespace TypeTrace.Text

def quoteMark (text : String) : Char :=
  if text.toList.contains '\'' && !text.toList.contains '"' then '"' else '\''

def codeEscape (c : Char) : String :=
  if c.toNat ≤ 0xff then "\\x" ++ hex 2 c.toNat
  else if c.toNat ≤ 0xffff then "\\u" ++ hex 4 c.toNat
  else "\\U" ++ hex 8 c.toNat

def quotedChar (mark c : Char) : String :=
  if c = mark ∨ c = '\\' then "\\" ++ String.singleton c
  else if c = '\n' then "\\n"
  else if c = '\r' then "\\r"
  else if c = '\t' then "\\t"
  else if isPrintable c then String.singleton c
  else codeEscape c

def quoted (text : String) : String :=
  let mark := quoteMark text
  String.singleton mark ++ String.join (text.toList.map (quotedChar mark)) ++ String.singleton mark

def quotedList (texts : List String) : String :=
  "[" ++ String.intercalate ", " (texts.map quoted) ++ "]"

end TypeTrace.Text
