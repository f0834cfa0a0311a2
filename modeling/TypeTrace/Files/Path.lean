/-!
# Paths

A path is a text taken apart at its slashes. Repeated slashes and single dots mean nothing; two dots
are kept, since what they lead to depends on the files. Two slashes at the beginning, and no more
than two, are a root of their own.
-/

namespace TypeTrace

/-- Where a path starts: at the place where the program runs, at the root, or at the root that two
slashes write. -/
inductive Anchor where
  | relative | root | doubleRoot
deriving DecidableEq, Inhabited

structure Path where
  anchor : Anchor
  parts : List String
deriving DecidableEq, Inhabited

namespace Path

def anchorText : Anchor → String
  | .relative => ""
  | .root => "/"
  | .doubleRoot => "//"

def anchorOf (cs : List Char) : Anchor :=
  match (cs.takeWhile (· = '/')).length with
  | 0 => .relative
  | 2 => .doubleRoot
  | _ => .root

/-- The pieces of a text between slashes; `piece` holds, last first, the characters of the current
one. -/
def pieces (piece : List Char) : List Char → List String
  | [] => [String.ofList piece.reverse]
  | c :: cs =>
    if c = '/' then String.ofList piece.reverse :: pieces [] cs else pieces (c :: piece) cs

def ofText (text : String) : Path :=
  ⟨anchorOf text.toList, (pieces [] text.toList).filter fun p => p ≠ "" ∧ p ≠ "."⟩

/-- A path as text. A path without anchor and parts is a dot. -/
def text (p : Path) : String :=
  let text := anchorText p.anchor ++ String.intercalate "/" p.parts
  if text.isEmpty then "." else text

def isAbsolute (p : Path) : Bool := p.anchor ≠ .relative

def join (p q : Path) : Path :=
  match q.anchor with
  | .relative => { p with parts := p.parts ++ q.parts }
  | _ => q

/-- Whether a part has a null character in it, which no name of a file has. -/
def isNull (part : String) : Bool := part.toList.contains '\x00'

def holdsNull (p : Path) : Bool := p.parts.any isNull

def child (p : Path) (name : String) : Path := { p with parts := p.parts ++ [name] }

def parent (p : Path) : Path := { p with parts := p.parts.dropLast }

/-- One step up from a path. A relative path goes on with two dots where it has nothing to take back. -/
def above (p : Path) : Path :=
  if p.parts.getLast? = some ".." ∨ (p.parts = [] ∧ p.anchor = .relative) then p.child ".."
  else p.parent

def name (p : Path) : String := p.parts.getLast?.getD ""

/-- The ending of a path's last part from its last dot on, if there is something before and behind
the dot. -/
def suffix (p : Path) : String :=
  let cs := p.name.toList
  let ending := (cs.reverse.takeWhile (· ≠ '.')).reverse
  if ending.isEmpty ∨ cs.length ≤ ending.length + 1 then "" else String.ofList ('.' :: ending)

def relativeTo? (p root : Path) : Option Path :=
  if p.anchor = root.anchor ∧ root.parts.isPrefixOf p.parts then
    some ⟨.relative, p.parts.drop root.parts.length⟩
  else none

/-- The text by which a path is known in reports: seen from a root if it is below it. -/
def stableKey (p root : Path) : String := ((p.relativeTo? root).getD p).text

/-- Takes two dots back against the part before them, without a look at the files; `done` holds, last
first, the parts so far. -/
def foldDots (done : List String) : List String → List String
  | [] => done.reverse
  | part :: parts =>
    if part = ".." then foldDots done.tail parts else foldDots (part :: done) parts

end Path

end TypeTrace
