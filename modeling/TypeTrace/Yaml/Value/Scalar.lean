import TypeTrace.Text.Blank
import TypeTrace.Text.Hex
import TypeTrace.Yaml.Node
import TypeTrace.Yaml.Value

/-!
# Scalars as values

The value that the text of a scalar has under its tag.
-/

namespace TypeTrace.Yaml.Value

/-! ### Numbers -/

/-- Whether a number is negative, and the characters behind its sign. -/
def signed (cs : List Char) : Bool × List Char := (cs.head? == some '-', Tag.unsigned cs)

def digitIn? (base : Nat) (c : Char) : Option Nat := (Text.hexDigit? c).filter (· < base)

def baseLetter? (base : Nat) : Option Char :=
  if base = 2 then some 'b' else if base = 8 then some 'o' else if base = 16 then some 'x' else none

def dropBase (base : Nat) (cs : List Char) : List Char :=
  match cs with
  | '0' :: c :: rest =>
    if baseLetter? base = some c.toLower then rest else cs
  | _ => cs

/-- The whole number that a text writes in a base. Blank space around it and a sign are allowed. -/
def wholeNumber (base : Nat) (cs : List Char) : Except BadValue Int :=
  let bad : Except BadValue Int := .error (.wholeNumber base (String.ofList cs))
  let (negative, body) := signed (Text.stripList cs)
  match (dropBase base body).mapM (digitIn? base) with
  | some (d :: ds) =>
    if base = 10 ∧ Text.digitLimit < ds.length + 1 then .error (.tooLong (ds.length + 1))
    else
      let n : Nat := (d :: ds).foldl (fun n d => n * base + d) 0
      .ok (if negative then -(n : Int) else n)
  | _ => bad

/-- The number whose places in base sixty are given, the largest first. -/
def sexagesimal (places : List Int) : Int := places.foldl (fun n place => n * 60 + place) 0

/-- The whole number of a scalar: binary, hexadecimal, octal, in base sixty, or decimal. -/
def intOf (text : String) : Except BadValue Int := do
  let (negative, body) := signed (text.toList.filter (· ≠ '_'))
  let n ← match body with
    | ['0'] => .ok 0
    | '0' :: 'b' :: ds => wholeNumber 2 ds
    | '0' :: 'x' :: ds => wholeNumber 16 ds
    | '0' :: _ => wholeNumber 8 body
    | _ =>
      if body.contains ':' then
        sexagesimal <$> (Tag.colonPieces [] body).mapM (wholeNumber 10)
      else wholeNumber 10 body
  return if negative then -n else n

/-- The digits before and behind the point of a decimal, and its exponent. -/
def decimalParts? (cs : List Char) : Option (List Char × List Char × Int) := do
  let whole := cs.takeWhile Timestamp.isDigit
  let rest := cs.dropWhile Timestamp.isDigit
  let (fraction, rest) := match rest with
    | '.' :: rest => (rest.takeWhile Timestamp.isDigit, rest.dropWhile Timestamp.isDigit)
    | _ => ([], rest)
  if whole.isEmpty && fraction.isEmpty then none
  match rest with
  | [] => some (whole, fraction, 0)
  | e :: rest =>
    if e ≠ 'e' then none
    let (negative, ds) := signed rest
    if Tag.allOf Timestamp.isDigit ds then
      let n : Int := Timestamp.number ds
      some (whole, fraction, if negative then -n else n)
    else none

def decimal (cs : List Char) : Except BadValue Binary64 :=
  let (negative, body) := signed (Text.stripList cs)
  if body = "inf".toList ∨ body = "infinity".toList then .ok (.infinite negative)
  else if body = "nan".toList then .ok .nan
  else
    match decimalParts? body with
    | some (whole, fraction, exponent) =>
      .ok (.ofDecimal negative (Timestamp.number (whole ++ fraction)) (exponent - fraction.length))
    | none => .error (.number (String.ofList cs))

/-- The sum of places in base sixty, the smallest first. -/
def sumPlaces (places : List Binary64) : Binary64 :=
  (places.foldl
    (fun (sum, base) place => (Binary64.add sum (place.scale base), base * 60))
    (Binary64.ofInt 0, 1)).1

def floatOf (text : String) : Except BadValue Binary64 := do
  let lower := (text.toList.filter (· ≠ '_')).map Char.toLower
  let (negative, body) := signed lower
  let x ← if body = ".inf".toList then .ok (Binary64.infinite false)
    else if body = ".nan".toList then .ok Binary64.nan
    else if body.contains ':' then
      (fun places => sumPlaces places.reverse) <$> (Tag.colonPieces [] body).mapM decimal
    else decimal body
  return if negative then x.neg else x

/-! ### Bytes -/

def sixBits? (c : Char) : Option Nat :=
  if 'A' ≤ c ∧ c ≤ 'Z' then some (c.toNat - 'A'.toNat)
  else if 'a' ≤ c ∧ c ≤ 'z' then some (c.toNat - 'a'.toNat + 26)
  else if '0' ≤ c ∧ c ≤ '9' then some (c.toNat - '0'.toNat + 52)
  else if c = '+' then some 62
  else if c = '/' then some 63
  else none

/-- The bytes that six-bit groups make up: four groups three bytes, the last of them fewer. -/
def bytesOf : List Nat → List UInt8
  | a :: b :: c :: d :: rest =>
    UInt8.ofNat (a * 4 + b / 16) :: UInt8.ofNat (b % 16 * 16 + c / 4) :: UInt8.ofNat (c % 4 * 64 + d)
      :: bytesOf rest
  | [a, b, c] => [UInt8.ofNat (a * 4 + b / 16), UInt8.ofNat (b % 16 * 16 + c / 4)]
  | [a, b] => [UInt8.ofNat (a * 4 + b / 16)]
  | _ => []

/-- The six-bit groups of a text in base 64, last first, up to the padding that completes four, and
whether such a padding was there. Characters that stand for nothing are passed over. -/
def groups (read : List Nat) (pads : Nat) : List Char → List Nat × Bool
  | [] => (read, false)
  | c :: cs =>
    let filled := read.length % 4
    if c = '=' then
      if 2 ≤ filled then
        if 4 ≤ filled + pads + 1 then (read, true) else groups read (pads + 1) cs
      else groups read pads cs
    else
      match sixBits? c with
      | some n => groups (n :: read) 0 cs
      | none => groups read pads cs

def base64 (cs : List Char) : Except Problem (List UInt8) :=
  let isAscii (c : Char) : Bool := c.toNat < 128
  match cs.find? fun c => !isAscii c with
  | some first =>
    .error (.notAscii first (cs.takeWhile isAscii).length
      ((cs.dropWhile isAscii).takeWhile fun c => !isAscii c).length)
  | none =>
    let (read, padded) := groups [] 0 cs
    let filled := read.length % 4
    if padded ∨ filled = 0 then .ok (bytesOf read.reverse)
    else if filled = 1 then .error (.base64Length (read.length / 4 * 4 + 1))
    else .error .base64Padding

/-! ### Scalars -/

def boolOf (text : String) : Except BadValue Bool :=
  match Tag.truthWords.lookup (String.ofList (text.toList.map Char.toLower)) with
  | some value => .ok value
  | none => .error (.word (String.ofList (text.toList.map Char.toLower)))

def timestampOf (text : String) : Except BadValue Timestamp :=
  match Timestamp.ofChars? text.toList with
  | some t => do
    t.check
    return t
  | none => .error (.word text)

def scalarOf (tag : Tag) (mark : Mark) (content : String) : Except Fault Value :=
  let bad {α : Type} (x : Except BadValue α) : Except Fault α := x.mapError .badValue
  match tag with
  | .null => .ok null
  | .bool => bool <$> bad (boolOf content)
  | .int => int <$> bad (intOf content)
  | .float => float <$> bad (floatOf content)
  | .timestamp => timestamp <$> bad (timestampOf content)
  | .binary =>
    bytes <$> (base64 content.toList).mapError fun problem => .malformed (.wrong none problem mark)
  | .str => .ok (text content)
  | other => .error (.malformed (.wrong none (.unknownTag other.name) mark))

end TypeTrace.Yaml.Value
