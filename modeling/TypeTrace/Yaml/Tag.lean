import TypeTrace.Yaml.Timestamp

/-!
# Tags

A tag says what a node means. A plain scalar without a tag gets one by its form.
-/

namespace TypeTrace.Yaml

inductive Tag where
  | null | bool | int | float | binary | timestamp | str
  | seq | map | set | omap | pairs
  | merge | value
  | other (name : String)
deriving DecidableEq, Inhabited

namespace Tag

def stem : String := "tag:yaml.org,2002:"

def common : List (String × Tag) :=
  [("null", null), ("bool", bool), ("int", int), ("float", float), ("binary", binary),
   ("timestamp", timestamp), ("str", str), ("seq", seq), ("map", map), ("set", set), ("omap", omap),
   ("pairs", pairs), ("merge", merge), ("value", value)]

def ofName (name : String) : Tag :=
  ((common.find? fun (ending, _) => stem ++ ending == name).map (·.2)).getD (other name)

def name (t : Tag) : String :=
  match t with
  | other name => name
  | t => stem ++ ((common.find? fun (_, tag) => tag == t).map (·.1)).getD ""

/-! ### Forms of plain scalars -/

def truthWords : List (String × Bool) :=
  [("yes", true), ("no", false), ("true", true), ("false", false), ("on", true), ("off", false)]

def spellings (word : String) : List String := [word, word.capitalize, word.toUpper]

def isBool (text : String) : Bool := (truthWords.flatMap fun (w, _) => spellings w).contains text

def isNull (text : String) : Bool := ("" :: "~" :: spellings "null").contains text

/-- The characters behind a sign, if there is one. -/
def unsigned : List Char → List Char
  | c :: cs => if c = '+' ∨ c = '-' then cs else c :: cs
  | [] => []

def allOf (p : Char → Bool) (cs : List Char) : Bool := !cs.isEmpty && cs.all p

def isDigitOrLine (c : Char) : Bool := Timestamp.isDigit c || c == '_'

def isDigits (cs : List Char) : Bool :=
  (cs.head?.any Timestamp.isDigit) && cs.all isDigitOrLine

def isSixtieth : List Char → Bool
  | [c] => Timestamp.isDigit c
  | [c, d] => '0' ≤ c && c ≤ '5' && Timestamp.isDigit d
  | _ => false

/-- The pieces of a text between colons; `piece` holds, last first, the characters of the current
one. -/
def colonPieces (piece : List Char) : List Char → List (List Char)
  | [] => [piece.reverse]
  | c :: cs => if c = ':' then piece.reverse :: colonPieces [] cs else colonPieces (c :: piece) cs

def isSexagesimal (first : List Char → Bool) (cs : List Char) : Bool :=
  match colonPieces [] cs with
  | head :: next :: others => first head && (next :: others).all isSixtieth
  | _ => false

/-- Whether a text is a whole number: binary, octal, decimal, hexadecimal or in base sixty. -/
def isInt (cs : List Char) : Bool :=
  match unsigned cs with
  | [] => false
  | ['0'] => true
  | '0' :: 'b' :: ds => allOf (fun c => c == '0' || c == '1' || c == '_') ds
  | '0' :: 'x' :: ds =>
    allOf (fun c => isDigitOrLine c || ('a' ≤ c && c ≤ 'f') || ('A' ≤ c && c ≤ 'F')) ds
  | '0' :: ds => allOf (fun c => ('0' ≤ c && c ≤ '7') || c == '_') ds
  | ds => isDigits ds || isSexagesimal isDigits ds

/-- Whether characters are an exponent, or nothing. The sign of an exponent may not be missing. -/
def isExponent : List Char → Bool
  | [] => true
  | e :: s :: ds => (e == 'e' || e == 'E') && (s == '+' || s == '-') && allOf Timestamp.isDigit ds
  | _ => false

/-- Whether a text is a number with a point, or a word for no finite number. -/
def isFloat (cs : List Char) : Bool :=
  let body := unsigned cs
  let whole := body.takeWhile (· ≠ '.')
  match body.dropWhile (· ≠ '.') with
  | [] => false
  | _ :: rest =>
    let digits := rest.takeWhile isDigitOrLine
    let exponent := rest.dropWhile isDigitOrLine
    if whole.isEmpty then
      (["inf", "Inf", "INF"].contains (String.ofList rest))
        || (body.length = cs.length && ((["nan", "NaN", "NAN"].contains (String.ofList rest))
          || (isDigits digits && isExponent exponent)))
    else
      (isDigits whole && isExponent exponent)
        || (isSexagesimal isDigits whole && exponent.isEmpty)

/-- The tag that a text without quotes has by its form. -/
def implicit (text : String) : Tag :=
  let cs := text.toList
  if isBool text then bool
  else if isFloat cs then float
  else if isInt cs then int
  else if text = "<<" then merge
  else if isNull text then null
  else if Timestamp.isImplicit cs then timestamp
  else if text = "=" then value
  else str

end Tag

end TypeTrace.Yaml
