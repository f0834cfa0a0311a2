import TypeTrace.Json

/-!
# Reading JSON

The value that a JSON text writes. Numbers are whole, members keep their order, and two escapes that
are halves of a pair make one character; half a pair alone is refused, as is everything that is not
JSON. What `Json.render` writes is read back as the value that was written.
-/

namespace TypeTrace.Json

/-- A reader of the beginning of a text: what it stands for and what follows it. -/
abbrev Reader (α : Type) := List Char → Option (α × List Char)

def isSpace (c : Char) : Bool := c = ' ' || c = '\n' || c = '\r' || c = '\t'

def skipSpace (cs : List Char) : List Char := cs.dropWhile isSpace

def readWord (word : String) (value : Json) : Reader Json := fun cs =>
  if word.toList.isPrefixOf cs then some (value, cs.drop word.length) else none

def ofDigits (digits : List Char) : Nat :=
  digits.foldl (fun n c => n * 10 + (c.toNat - '0'.toNat)) 0

/-- Reads the digits of a whole number. None but zero itself begins with a zero. -/
def readNat : Reader Nat := fun cs =>
  match cs.span Char.isDigit with
  | ([], _) => none
  | ('0' :: _ :: _, _) => none
  | (digits, rest) => some (ofDigits digits, rest)

def readInt : Reader Int
  | '-' :: cs => (readNat cs).map fun (n, rest) => (-(n : Int), rest)
  | cs => (readNat cs).map fun (n, rest) => ((n : Int), rest)

def escaped? (c : Char) : Option Char :=
  List.lookup c
    [('"', '"'), ('\\', '\\'), ('/', '/'), ('b', '\x08'), ('f', '\x0c'), ('n', '\n'), ('r', '\r'),
     ('t', '\t')]

/-- Reads the units of a text behind its opening quote: a code point for each character that stands
for itself, and the number of each escape. -/
def readUnits : Reader (List Nat)
  | [] => none
  | c :: cs =>
    if c = '"' then some ([], cs)
    else if c = '\\' then
      match cs with
      | 'u' :: a :: b :: d :: e :: rest => do
        let unit ← Text.fourDigits? [a, b, d, e]
        let (units, rest) ← readUnits rest
        some (unit :: units, rest)
      | e :: rest => do
        let meant ← escaped? e
        let (units, rest) ← readUnits rest
        some (meant.toNat :: units, rest)
      | [] => none
    else if c.toNat < 0x20 then none
    else do
      let (units, rest) ← readUnits cs
      some (c.toNat :: units, rest)

def ofUnits : List Nat → Option (List Char)
  | [] => some []
  | [unit] => if Text.isScalar unit then some [Char.ofNat unit] else none
  | unit :: next :: units =>
    if Text.isScalar unit then (ofUnits (next :: units)).map (Char.ofNat unit :: ·)
    else if Text.isLead unit && Text.isTrail next then
      (ofUnits units).map (Text.combine unit next :: ·)
    else none

def readText : Reader String
  | '"' :: cs => do
    let (units, rest) ← readUnits cs
    let characters ← ofUnits units
    some (String.ofList characters, rest)
  | _ => none

mutual

/-- Reads a value, nested at most as deep as `fuel`. -/
def readValue : (fuel : Nat) → Reader Json
  | 0, _ => none
  | fuel + 1, cs =>
    match skipSpace cs with
    | 'n' :: cs => readWord "ull" null cs
    | 't' :: cs => readWord "rue" (bool true) cs
    | 'f' :: cs => readWord "alse" (bool false) cs
    | '"' :: cs => (readText ('"' :: cs)).map fun (value, rest) => (text value, rest)
    | '[' :: cs =>
      match skipSpace cs with
      | ']' :: rest => some (list [], rest)
      | cs => (readItems fuel cs).map fun (items, rest) => (list items, rest)
    | '\x7b' :: cs =>
      match skipSpace cs with
      | '\x7d' :: rest => some (object [], rest)
      | cs => (readMembers fuel cs).map fun (members, rest) => (object members, rest)
    | cs => (readInt cs).map fun (n, rest) => (int n, rest)

def readItems : (fuel : Nat) → Reader (List Json)
  | 0, _ => none
  | fuel + 1, cs => do
    let (item, rest) ← readValue fuel cs
    match skipSpace rest with
    | ']' :: rest => some ([item], rest)
    | ',' :: rest => do
      let (items, rest) ← readItems fuel rest
      some (item :: items, rest)
    | _ => none

def readMembers : (fuel : Nat) → Reader (List (String × Json))
  | 0, _ => none
  | fuel + 1, cs => do
    let (key, rest) ← readText (skipSpace cs)
    match skipSpace rest with
    | ':' :: rest => do
      let (value, rest) ← readValue fuel rest
      match skipSpace rest with
      | '\x7d' :: rest => some ([(key, value)], rest)
      | ',' :: rest => do
        let (members, rest) ← readMembers fuel rest
        some ((key, value) :: members, rest)
      | _ => none
    | _ => none

end

/-- The value that a whole text writes. Each value, item and member takes a character at least, so
the length of the text bounds the nesting. -/
def read? (content : String) : Option Json :=
  let cs := content.toList
  match readValue (2 * cs.length + 1) cs with
  | some (value, rest) => if (skipSpace rest).isEmpty then some value else none
  | none => none

def member? (key : String) : Json → Option Json
  | object members => members.lookup key
  | _ => none

end TypeTrace.Json
