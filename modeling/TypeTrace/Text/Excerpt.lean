import TypeTrace.Position

/-!
# Excerpts of a text

An excerpt shows a position of a text: the line with a caret below the place, the lines before and
behind it, and line numbers in a margin. Very long lines are shown in pieces, without the lines around
them.
-/

namespace TypeTrace.Text

/-- The lines of a text; `line` holds, last first, the characters of the current one. -/
def linesFrom (line : List Char) : List Char → List (List Char)
  | [] => [line.reverse]
  | '\r' :: '\n' :: cs => line.reverse :: linesFrom [] cs
  | c :: cs =>
    if c = '\n' ∨ c = '\r' then line.reverse :: linesFrom [] cs else linesFrom (c :: line) cs

def lines (text : String) : List String := (linesFrom [] text.toList).map String.ofList

def padLeft (width : Nat) (text : String) : String :=
  String.ofList (List.replicate (width - text.length) ' ') ++ text

/-- Consecutive pieces of `size` characters; the last may be shorter. -/
def chunks (size : Nat) : (fuel : Nat) → List Char → List (List Char)
  | 0, _ => []
  | fuel + 1, cs => if cs.isEmpty then [] else cs.take size :: chunks size fuel (cs.drop size)

/-- Lines with their margins, which are as wide as the widest of them. Lines that are not there are
left out, and nothing follows the margin of an empty line. -/
def withMargins (lines : List (String × Option String)) : String :=
  let present := lines.filterMap fun (margin, line) => line.map (margin, ·)
  let width := (present.map fun (margin, _) => margin.length).foldl max 0
  String.intercalate "\n" <| present.map fun (margin, line) =>
    padLeft width margin ++ if line.isEmpty then "" else " " ++ line

def margin (n : Nat) : String := toString n ++ " |"

def longestLine : Nat := 120

def pieceLength : Nat := 80

def caretLines (text : String) (p : Position) : List (String × Option String) :=
  let all := lines text
  let line := all.getD (p.line - 1) ""
  if line.length > longestLine then
    let pieces := (chunks pieceLength line.length line.toList).map String.ofList
    let index := p.column / pieceLength
    [(margin p.line, pieces.head?)]
      ++ ((pieces.drop 1).take index).map (("|", some ·))
      ++ [("|", some (padLeft (p.column % pieceLength) "^")), ("|", pieces[index + 1]?)]
  else
    [(margin (p.line - 1), if p.line ≤ 1 then none else all[p.line - 2]?),
     (margin p.line, some line),
     ("|", some (padLeft p.column "^")),
     (margin (p.line + 1), all[p.line]?)]

/-- The excerpt of a text around a position, headed by what the text is and by the position. -/
def excerpt (title text : String) (p : Position) : String :=
  title ++ ":" ++ p.text ++ "\n" ++ withMargins (caretLines text p)

end TypeTrace.Text
