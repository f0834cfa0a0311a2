import TypeTrace.Text.Quoted

/-!
# Reading text from bytes

Files hold text in UTF-8. Bytes that are no such text are refused with the place and the extent of
what is wrong. In the text that is read, every way to end a line is a line feed.
-/

namespace TypeTrace.Utf8

inductive Cause where
  | invalidStart
  | invalidContinuation
  | unexpectedEnd
deriving DecidableEq

/-- Bytes that are no text: where they are, how many they are, the first of them, and why. -/
structure Fault where
  offset : Nat
  length : Nat
  first : UInt8
  cause : Cause
deriving DecidableEq

def Cause.message : Cause → String
  | invalidStart => "invalid start byte"
  | invalidContinuation => "invalid continuation byte"
  | unexpectedEnd => "unexpected end of data"

def Fault.message (f : Fault) : String :=
  let place :=
    if f.length = 1 then
      "byte 0x" ++ Text.hex 2 f.first.toNat ++ " in position " ++ toString f.offset
    else
      "bytes in position " ++ toString f.offset ++ "-" ++ toString (f.offset + f.length - 1)
  "'utf-8' codec can't decode " ++ place ++ ": " ++ f.cause.message

/-- What a first byte says: the bits that it gives, how many bytes follow, and the range of the first
of them. -/
def lead? (b : Nat) : Option (Nat × Nat × Nat × Nat) :=
  if b ≤ 0x7f then some (b, 0, 0, 0)
  else if b < 0xc2 then none
  else if b ≤ 0xdf then some (b - 0xc0, 1, 0x80, 0xbf)
  else if b = 0xe0 then some (0, 2, 0xa0, 0xbf)
  else if b = 0xed then some (0xd, 2, 0x80, 0x9f)
  else if b ≤ 0xef then some (b - 0xe0, 2, 0x80, 0xbf)
  else if b = 0xf0 then some (0, 3, 0x90, 0xbf)
  else if b ≤ 0xf3 then some (b - 0xf0, 3, 0x80, 0xbf)
  else if b = 0xf4 then some (4, 3, 0x80, 0x8f)
  else none

/-- Reads the bytes that follow a first byte: `value` holds the bits so far, `length` the number of
bytes so far, and the next byte lies between `low` and `high`. -/
def continuation (value length low high : Nat) :
    (missing : Nat) → List UInt8 → Except (Nat × Cause) (Nat × Nat)
  | 0, _ => .ok (value, length)
  | _ + 1, [] => .error (length, .unexpectedEnd)
  | missing + 1, b :: bytes =>
    if low ≤ b.toNat ∧ b.toNat ≤ high then
      continuation (value * 64 + (b.toNat - 0x80)) (length + 1) 0x80 0xbf missing bytes
    else .error (length, .invalidContinuation)

/-- Reads bytes as characters. `skip` bytes still belong to the character that was read last; `read`
holds the characters so far, last first. -/
def decodeFrom (read : List Char) (offset : Nat) :
    (skip : Nat) → List UInt8 → Except Fault (List Char)
  | _, [] => .ok read.reverse
  | skip + 1, _ :: bytes => decodeFrom read (offset + 1) skip bytes
  | 0, b :: bytes =>
    match lead? b.toNat with
    | none => .error ⟨offset, 1, b, .invalidStart⟩
    | some (bits, missing, low, high) =>
      match continuation bits 1 low high missing bytes with
      | .ok (value, length) =>
        decodeFrom (Char.ofNat value :: read) (offset + 1) (length - 1) bytes
      | .error (length, cause) => .error ⟨offset, length, b, cause⟩

/-- Makes every way to end a line a line feed. -/
def normalizeLines : List Char → List Char
  | '\r' :: '\n' :: cs => '\n' :: normalizeLines cs
  | c :: cs => (if c = '\r' then '\n' else c) :: normalizeLines cs
  | [] => []

def readText (bytes : List UInt8) : Except Fault String :=
  (fun cs => String.ofList (normalizeLines cs)) <$> decodeFrom [] 0 0 bytes

def bytesOf (text : String) : List UInt8 := text.toUTF8.toList

end TypeTrace.Utf8
