import TypeTrace.Files.Tree

/-!
# Patterns for paths

A pattern is a relative path whose parts may hold wildcards: a star for any characters, a question
mark for one, brackets for one of some. A part of two stars stands for any number of directories.
Parts without wildcards have to be there as they are.
-/

namespace TypeTrace.Glob

/-- A piece of a part with wildcards. A set holds ranges and may be turned round. -/
inductive Piece where
  | star
  | one
  | char (c : Char)
  | set (negated : Bool) (ranges : List (Char × Char))
deriving DecidableEq

/-- Why files cannot be looked for: the pattern is refused, or a path cannot be resolved. -/
inductive Fault where
  | empty
  | absolute
  | doubleStarWithin
  | noParts
  | onlySlash
  | path (fault : PathFault)
deriving DecidableEq

def Fault.message : Fault → String
  | empty => "Unacceptable pattern: ''"
  | absolute => "Non-relative patterns are unsupported"
  | doubleStarWithin => "Invalid pattern: '**' can only be an entire path component"
  | noParts => "tuple index out of range"
  | onlySlash => "'_TerminatingSelector' object has no attribute 'select_from'"
  | path fault => fault.message

/-- Cuts the inside of a set at its range dashes: a dash counts unless it comes first, or right behind
the end of another range. `chunk` holds, last first, the characters since the last cut, and `wait` says
how many characters have to pass before a dash counts. -/
def cutRanges (chunk : List Char) (wait : Nat) : List Char → List (List Char)
  | [] => [chunk.reverse]
  | c :: cs =>
    match wait with
    | wait + 1 => cutRanges (c :: chunk) wait cs
    | 0 => if c = '-' then chunk.reverse :: cutRanges [] 2 cs else cutRanges (c :: chunk) 0 cs

/-- Gives a last cut that has nothing behind it back as a dash. -/
def mendLast : List (List Char) → List (List Char)
  | [chunk, []] => [chunk ++ ['-']]
  | chunk :: chunks => chunk :: mendLast chunks
  | [] => []

def dropEmptyRanges (chunks : List (List Char)) : List (List Char) :=
  chunks.foldr
    (fun chunk chunks =>
      match chunks with
      | [] => [chunk]
      | next :: others =>
        match chunk.getLast?, next.head? with
        | some low, some high =>
          if high < low then (chunk.dropLast ++ next.tail) :: others else chunk :: chunks
        | _, _ => chunk :: chunks)
    []

/-- The ranges that chunks stand for: every character on its own, and from the end of each chunk to the
beginning of the next. -/
def rangesOf : List (List Char) → List (Char × Char)
  | [] => []
  | chunk :: chunks =>
    let own := chunk.map fun c => (c, c)
    match chunk.getLast?, chunks.head?.bind List.head? with
    | some low, some high => own ++ (low, high) :: rangesOf chunks
    | _, _ => own ++ rangesOf chunks

def setOf (inside : List Char) : Piece :=
  let chunks :=
    if inside.contains '-' then
      dropEmptyRanges (mendLast (cutRanges [] (if inside.head? = some '!' then 2 else 1) inside))
    else [inside]
  match chunks with
  | ('!' :: chunk) :: others =>
    let ranges := rangesOf (chunk :: others)
    if ranges.isEmpty then .one else .set true ranges
  | _ => .set false (rangesOf chunks)

/-- The inside of brackets, given what follows the opening one: a closing bracket that comes first, or
first behind an exclamation mark, belongs to it. -/
def insideBrackets? (cs : List Char) : Option (List Char × List Char) :=
  let (mark, cs) := match cs with
    | '!' :: rest => (['!'], rest)
    | _ => ([], cs)
  let (first, cs) := match cs with
    | ']' :: rest => ([']'], rest)
    | _ => ([], cs)
  match cs.span (· ≠ ']') with
  | (inside, _ :: rest) => some (mark ++ first ++ inside, rest)
  | (_, []) => none

/-- The pieces of a part. `skip` characters still belong to the set that was read last. -/
def pieces : (skip : Nat) → List Char → List Piece
  | _, [] => []
  | skip + 1, _ :: cs => pieces skip cs
  | 0, c :: cs =>
    if c = '*' then .star :: pieces 0 cs
    else if c = '?' then .one :: pieces 0 cs
    else if c = '[' then
      match insideBrackets? cs with
      | some (inside, _) => setOf inside :: pieces (inside.length + 1) cs
      | none => .char c :: pieces 0 cs
    else .char c :: pieces 0 cs

def Piece.admits (c : Char) : Piece → Bool
  | .star => false
  | .one => true
  | .char d => c == d
  | .set negated ranges => (ranges.any fun (low, high) => low ≤ c && c ≤ high) != negated

def someEnd (test : List Char → Bool) : List Char → Bool
  | [] => test []
  | c :: cs => test (c :: cs) || someEnd test cs

def fits : List Piece → List Char → Bool
  | [] => List.isEmpty
  | .star :: ps => someEnd (fits ps)
  | p :: ps => fun
    | c :: cs => p.admits c && fits ps cs
    | [] => false

def hasWildcard (part : String) : Bool :=
  part.toList.any fun c => c = '*' || c = '?' || c = '['

def hasDoubleStar : List Char → Bool
  | '*' :: '*' :: _ => true
  | _ :: cs => hasDoubleStar cs
  | [] => false

/-- A part of a pattern. An empty part, which a slash at the end makes, stands for nothing more. -/
inductive Part where
  | nothing
  | anyDepth
  | wild (pieces : List Piece)
  | exact (name : String)
deriving DecidableEq

def partOf (part : String) : Except Fault Part :=
  if part.isEmpty then .ok .nothing
  else if part = "**" then .ok .anyDepth
  else if hasDoubleStar part.toList then .error .doubleStarWithin
  else if hasWildcard part then .ok (.wild (pieces 0 part.toList))
  else .ok (.exact part)

def parse (pattern : String) : Except Fault (List Part) :=
  if pattern.isEmpty then .error .empty
  else
    let path := Path.ofText pattern
    if path.isAbsolute then .error .absolute
    else
      if path.parts.isEmpty then .error (if pattern.endsWith "/" then .onlySlash else .noParts)
      else (path.parts ++ if pattern.endsWith "/" then [""] else []).mapM partOf

def select (files : FileTree) : List Part → Path → List Path
  | [], p => [p]
  | .nothing :: _, p => [p]
  | .exact name :: rest, p =>
    let next := p.child name
    if (if rest.isEmpty then files.pathExists next else files.isDirectory next) then
      select files rest next
    else []
  | .wild pieces :: rest, p =>
    match files.locate p with
    | .error _ => []
    | .ok place =>
      ((files.names place).filter fun name =>
          fits pieces name.toList && (rest.isEmpty || files.isDirectory (p.child name))).flatMap
        fun name => select files rest (p.child name)
  | .anyDepth :: rest, p =>
    match files.locate p with
    | .error _ => []
    | .ok place =>
      (([] :: files.directoriesBelow place).flatMap fun below =>
        select files rest { p with parts := p.parts ++ below }).eraseDups

def expand (files : FileTree) (root : Path) (pattern : String) : Except Fault (List Path) := do
  let parts ← parse pattern
  return if files.isDirectory root then select files parts root else []

end TypeTrace.Glob
