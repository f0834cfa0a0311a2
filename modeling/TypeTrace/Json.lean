import TypeTrace.Text.Digit
import TypeTrace.Text.Hex

/-!
# JSON

JSON values and their text: two blanks of indentation for each level, an item a line, and nothing
but ASCII. A value may hold parts that have no form in JSON, or whole numbers of too many digits; such
a value has no text.
-/

namespace TypeTrace

/-- A value to be written as JSON. The keys of an object keep their order. -/
inductive Json where
  | null
  | bool (value : Bool)
  | int (value : Int)
  | text (value : String)
  | list (items : List Json)
  | object (members : List (String × Json))
  | foreign (sort : String)
deriving Inhabited

namespace Json

/-- Why a value has no text: a part of it has no form in JSON, or is a number of too many digits. -/
inductive Fault where
  | foreign (sort : String)
  | longNumber
deriving DecidableEq

def Fault.message : Fault → String
  | foreign sort => "Object of type " ++ sort ++ " is not JSON serializable"
  | longNumber => Text.longMessage

def unitEscape (n : Nat) : List Char := '\\' :: 'u' :: (Text.hex 4 n).toList

/-- A character within a JSON text. Characters beyond the first 65536 take two units. -/
def escapeChar (c : Char) : List Char :=
  if c = '"' then ['\\', '"']
  else if c = '\\' then ['\\', '\\']
  else if c = '\n' then ['\\', 'n']
  else if c = '\r' then ['\\', 'r']
  else if c = '\t' then ['\\', 't']
  else if c = '\x08' then ['\\', 'b']
  else if c = '\x0c' then ['\\', 'f']
  else if 0x20 ≤ c.toNat ∧ c.toNat ≤ 0x7e then [c]
  else if c.toNat ≤ 0xffff then unitEscape c.toNat
  else unitEscape (Text.halves c).1 ++ unitEscape (Text.halves c).2

def quote (text : String) : String :=
  String.ofList ('"' :: (text.toList.flatMap escapeChar ++ ['"']))

def lineBreak (depth : Nat) : String := "\n" ++ String.ofList (List.replicate (2 * depth) ' ')

def bracket (opening closing : String) (depth : Nat) (parts : List String) : String :=
  if parts.isEmpty then opening ++ closing
  else
    opening ++ lineBreak (depth + 1) ++ String.intercalate ("," ++ lineBreak (depth + 1)) parts
      ++ lineBreak depth ++ closing

mutual

/-- The text of a value that stands at a depth. Its numbers have to be short if `limited` holds. -/
def renderAt (limited : Bool) (depth : Nat) : Json → Except Fault String
  | null => .ok "null"
  | bool value => .ok (if value then "true" else "false")
  | int value => if limited && !Text.isShort value then .error .longNumber else .ok (toString value)
  | text value => .ok (quote value)
  | list items => do .ok (bracket "[" "]" depth (← renderItems limited (depth + 1) items))
  | object members => do
    .ok (bracket "\x7b" "\x7d" depth (← renderMembers limited (depth + 1) members))
  | foreign sort => .error (.foreign sort)

def renderItems (limited : Bool) (depth : Nat) : List Json → Except Fault (List String)
  | [] => .ok []
  | item :: items => do
    let first ← renderAt limited depth item
    let others ← renderItems limited depth items
    .ok (first :: others)

def renderMembers (limited : Bool) (depth : Nat) : List (String × Json) → Except Fault (List String)
  | [] => .ok []
  | (key, value) :: members => do
    let first ← renderAt limited depth value
    let others ← renderMembers limited depth members
    .ok ((quote key ++ ": " ++ first) :: others)

end

def render (value : Json) : Except Fault String := renderAt true 0 value

/-- The text of a value, however long its numbers are. -/
def fullText (value : Json) : Except Fault String := renderAt false 0 value

def ofText? : Option String → Json
  | some value => text value
  | none => null

def ofInt? : Option Int → Json
  | some value => int value
  | none => null

end Json

end TypeTrace
