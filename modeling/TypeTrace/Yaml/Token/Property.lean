import TypeTrace.Yaml.Token
import TypeTrace.Yaml.Token.Scalar

/-!
# Reading names, tags and directives

What can stand in front of a node or of a document: anchors, aliases, tags, and directives.
-/

namespace TypeTrace.Yaml.Scan

def isWordChar (c : Char) : Bool :=
  ('0' ≤ c && c ≤ '9') || ('A' ≤ c && c ≤ 'Z') || ('a' ≤ c && c ≤ 'z') || c == '-' || c == '_'

def isUriChar (c : Char) : Bool :=
  isWordChar c || ";/?:@&=+$,.!~*'()[]%".toList.contains c

def endsAnchor (c : Char) : Bool := isSpace c || "?:,]\x7d%@`".toList.contains c

def anchorName (context : Context) : Scan String := do
  let start ← mark
  advance 1
  let name ← takeWhile isWordChar
  if name.isEmpty || !endsAnchor (← peek) then failExpecting context start .wordCharacter
  return String.ofList name

def uriBytes (context : Context) (start : Mark) (read : List UInt8) :
    (fuel : Nat) → Scan (List UInt8)
  | 0 => return read.reverse
  | fuel + 1 => do
    if (← peek) ≠ '%' then return read.reverse
    advance 1
    let n ← hexNumber context start .uriEscape 2
    uriBytes context start (UInt8.ofNat n :: read) fuel

/-- Reads a stem or a suffix; `read` holds, last first, what is read already. -/
def uriFrom (context : Context) (start : Mark) (read : List Char) : (fuel : Nat) → Scan (List Char)
  | 0 => return read.reverse
  | fuel + 1 => do
    let c ← peek
    if !isUriChar c then return read.reverse
    if c = '%' then
      let here ← mark
      match Utf8.decodeFrom [] 0 0 (← uriBytes context start [] (← remaining)) with
      | .ok cs => uriFrom context start (cs.reverse ++ read) fuel
      | .error fault =>
        throw (.malformed (.wrong (some (context, some start)) (.undecodable fault) here))
    else
      advance 1
      uriFrom context start (c :: read) fuel

def uri (missing escape : Context) (start : Mark) : Scan String := do
  let first ← peek
  if !isUriChar first then failExpecting missing start .uri
  return String.ofList (← uriFrom escape start [] (← remaining))

/-- Reads a handle: a name between exclamation marks, or one exclamation mark. -/
def handle (context : Context) (start : Mark) : Scan String := do
  if (← peek) ≠ '!' then failExpecting context start .exclamation
  if (← peekAt 1) = ' ' then
    advance 1
    return "!"
  let name := ((← get).rest.drop 1).takeWhile isWordChar
  advance (name.length + 1)
  if (← peek) ≠ '!' then failExpecting context start .exclamation
  advance 1
  return String.ofList ('!' :: (name ++ ['!']))

/-- Whether a tag has a handle of its own: a second exclamation mark before the next space. -/
def hasHandle (cs : List Char) : Bool := (cs.takeWhile fun c => !endsWord c).contains '!'

/-- Reads a tag: its handle, unless it is written in full, and its suffix. -/
def tag : Scan TokenSort := do
  let start ← mark
  let c ← peekAt 1
  let sort ← do
    if c = '<' then
      advance 2
      let suffix ← uri .uri .tag start
      if (← peek) ≠ '>' then failExpecting .uri start .closingAngle
      advance 1
      pure (TokenSort.tag none suffix)
    else if isSpace c then
      advance 1
      pure (TokenSort.tag none "!")
    else
      let own := hasHandle ((← get).rest.drop 1)
      let handle ← if own then handle .tag start else do
        advance 1
        pure "!"
      let suffix ← uri .uri .tag start
      pure (TokenSort.tag (some handle) suffix)
  if !endsWord (← peek) then failExpecting .tag start .blank
  return sort

def natOfDigits (digits : List Char) : Nat :=
  digits.foldl (fun n c => n * 10 + (c.toNat - '0'.toNat)) 0

def versionNumber (start : Mark) : Scan Nat := do
  let digits ← takeWhile fun c => '0' ≤ c && c ≤ '9'
  if digits.isEmpty then failExpecting .directive start .digit
  return natOfDigits digits

def directive : Scan Directive := do
  let start ← mark
  advance 1
  let name := String.ofList (← takeWhile isWordChar)
  if name.isEmpty || !endsWord (← peek) then failExpecting .directive start .wordCharacter
  let value ← do
    if name = "YAML" then
      skipWhile (· == ' ')
      let major ← versionNumber start
      if (← peek) ≠ '.' then failExpecting .directive start .digitOrDot
      advance 1
      let minor ← versionNumber start
      if !endsWord (← peek) then failExpecting .directive start .digitOrBlank
      pure (Directive.version major minor)
    else if name = "TAG" then
      skipWhile (· == ' ')
      let handle ← handle .directive start
      if (← peek) ≠ ' ' then failExpecting .directive start .blank
      skipWhile (· == ' ')
      let stem ← uri .tagDirective .directive start
      if !endsWord (← peek) then failExpecting .directive start .blank
      pure (Directive.tag handle stem)
    else
      skipWhile fun c => !endsLine c
      pure (Directive.other name)
  endLine .directive start
  return value

end TypeTrace.Yaml.Scan
