import TypeTrace.Number.Shortest
import TypeTrace.Yaml.Timestamp

/-!
# YAML values

What a YAML document means. The keys of a mapping are scalars and differ from each other; a number is
the same key whatever it is written as. A loop is a collection that contains itself.
-/

namespace TypeTrace.Yaml

inductive Value where
  | null
  | bool (value : Bool)
  | int (value : Int)
  | float (value : Binary64)
  | text (value : String)
  | bytes (value : List UInt8)
  | timestamp (value : Timestamp)
  | list (items : List Value)
  | mapping (entries : List (Value × Value))
  | set (items : List Value)
  | pairs (items : List (Value × Value))
  | loop
deriving Inhabited

namespace Value

/-- Classes of scalars that can be put in order among themselves. -/
inductive OrderClass where
  | null | number | text | bytes | date | localTime | universalTime
deriving DecidableEq

/-- A finite or infinite number that keys are compared by. -/
inductive Quantity where
  | below
  | ratio (num : Int) (den : Nat)
  | above
  | none

def quantity? : Value → Option Quantity
  | bool value => some (.ratio (if value then 1 else 0) 1)
  | int value => some (.ratio value 1)
  | float value =>
    match value.ratio?, value with
    | some (n, d), _ => some (.ratio n d)
    | Option.none, .infinite negative => some (if negative then .below else .above)
    | Option.none, _ => some Quantity.none
  | _ => Option.none

namespace Quantity

/-- Whether two quantities are equal. What is no number equals itself. -/
def same : Quantity → Quantity → Bool
  | below, below | above, above | none, none => true
  | ratio n d, ratio m e => n * e == m * d
  | _, _ => false

def atMost : Quantity → Quantity → Bool
  | below, _ | _, above => true
  | ratio n d, ratio m e => n * e ≤ m * d
  | _, _ => false

end Quantity

def orderClass? : Value → Option OrderClass
  | null => some .null
  | bool _ | int _ | float _ => some .number
  | text _ => some .text
  | bytes _ => some .bytes
  | timestamp t =>
    match t.time with
    | none => some .date
    | some time => some (if time.offset.isSome then .universalTime else .localTime)
  | _ => none

def sameKey (v w : Value) : Bool :=
  match v.quantity?, w.quantity? with
  | some a, some b => a.same b
  | _, _ =>
    match v, w with
    | null, null => true
    | text a, text b => a == b
    | bytes a, bytes b => a == b
    | timestamp a, timestamp b => v.orderClass? == w.orderClass? && a.instant == b.instant
    | _, _ => false

def atMost (v w : Value) : Bool :=
  match v.quantity?, w.quantity? with
  | some a, some b => a.atMost b
  | _, _ =>
    match v, w with
    | text a, text b => a ≤ b
    | bytes a, bytes b => a ≤ b
    | timestamp a, timestamp b => a.instant ≤ b.instant
    | _, _ => true

def sorted? (values : List Value) : Option (List Value) :=
  match values with
  | [] => some []
  | first :: others =>
    if others.all fun v => v.orderClass? == first.orderClass? then some (values.mergeSort atMost)
    else none

/-- Whether a value can be written in messages. A whole number of too many digits cannot. -/
def isWritable : Value → Bool
  | int value => Text.isShort value
  | _ => true

def byteText (mark : Char) (b : UInt8) : String :=
  let c := Char.ofNat b.toNat
  if b.toNat < 0x7f ∨ c = '\t' then Text.quotedChar mark c else "\\x" ++ Text.hex 2 b.toNat

def bytesText (bs : List UInt8) : String :=
  let mark := if bs.contains 39 && !bs.contains 34 then '"' else '\''
  "b" ++ String.singleton mark ++ String.join (bs.map (byteText mark)) ++ String.singleton mark

def shown : Value → String
  | null => "None"
  | bool value => if value then "True" else "False"
  | int value => toString value
  | float value => value.text
  | text value => Text.quoted value
  | bytes value => bytesText value
  | timestamp value => value.text
  | list _ => "[...]"
  | mapping _ | set _ => "\x7b...\x7d"
  | pairs _ => "[...]"
  | loop => "..."

/-- Puts an entry into a mapping. A key that is there keeps its place and gets the value. -/
def insert (key value : Value) : List (Value × Value) → List (Value × Value)
  | [] => [(key, value)]
  | (k, v) :: entries =>
    if k.sameKey key then (k, value) :: entries else (k, v) :: insert key value entries

/-- The mapping of entries: of entries with one key the last counts. -/
def ofEntries (entries : List (Value × Value)) : List (Value × Value) :=
  entries.foldl (fun done (key, value) => insert key value done) []

def get? (name : String) (entries : List (Value × Value)) : Option Value :=
  (entries.find? fun (key, _) => key.sameKey (text name)).map (·.2)

end Value

end TypeTrace.Yaml
