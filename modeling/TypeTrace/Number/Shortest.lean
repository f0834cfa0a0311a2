import TypeTrace.Number.Binary64

/-!
# The shortest decimal text

A floating-point number is written with the fewest digits that read back as the same number, and of the
decimals with so many digits with the nearest one.
-/

namespace TypeTrace.Binary64

/-- A number below ten times a power of ten and at least that power: the exponent of the power, for a
positive ratio. -/
def decimalExponent (num den : Nat) : Int :=
  if den ≤ num then ((Nat.toDigits 10 (num / den)).length : Int) - 1
  else -((List.range 400).find? fun k => den ≤ num * Nat.pow 10 k).getD 400

def scaleDecimal (num den : Nat) (e : Int) : Nat × Nat :=
  if 0 ≤ e then (num, den * Nat.pow 10 e.toNat) else (num * Nat.pow 10 (-e).toNat, den)

/-- The digits of the decimal with `count` digits that reads back as the number with an interval of
`low` to `high` over the denominator `den`, if there is one, and the exponent of its last digit. The
ends of the interval belong to it if `closed` holds. -/
def decimalWith? (low value high den : Nat) (closed : Bool) (count : Nat) : Option (Nat × Int) :=
  let e := decimalExponent value den - (count : Int) + 1
  let (v, d) := scaleDecimal value den e
  let (l, _) := scaleDecimal low den e
  let (h, _) := scaleDecimal high den e
  let inside (a : Nat) : Bool :=
    if closed then l ≤ a * d && a * d ≤ h else l < a * d && a * d < h
  let below := v / d
  let above := below + 1
  let nearerAbove := d < 2 * (v % d) ∨ (2 * (v % d) = d ∧ below % 2 = 1)
  match inside below, inside above with
  | true, true => some (if nearerAbove then above else below, e)
  | true, false => some (below, e)
  | false, true => some (above, e)
  | false, false => none

def shortest (significand : Nat) (exponent : Int) : Nat × Int :=
  let quarter := exponent - 2
  let (value, den) := scaleDown (4 * significand) 1 (-quarter)
  let unit := value / (4 * significand)
  let down := if 2 * significand = significandBound ∧ leastExponent < exponent then 1 else 2
  let closed := significand % 2 = 0
  ((List.range 17).findSome? fun n =>
    decimalWith? (value - down * unit) value (value + 2 * unit) den closed (n + 1)).getD
    (significand, 0)

/-- Digits with a point behind the one with exponent zero, of which at least one stands on either
side. -/
def positional (digits : List Char) (exponent : Int) : String :=
  if exponent < 0 then
    "0." ++ String.ofList (List.replicate (-exponent - 1).toNat '0' ++ digits)
  else
    let whole := exponent.toNat + 1
    let padded := digits ++ List.replicate (whole - digits.length) '0'
    let fraction := padded.drop whole
    String.ofList (padded.take whole) ++ "." ++ (if fraction.isEmpty then "0" else String.ofList fraction)

/-- Digits with a point behind the first of them, and an exponent of at least two digits. -/
def exponential (digits : List Char) (exponent : Int) : String :=
  let power := toString exponent.natAbs
  let fraction := digits.drop 1
  String.ofList (digits.take 1) ++ (if fraction.isEmpty then "" else "." ++ String.ofList fraction)
    ++ "e" ++ (if exponent < 0 then "-" else "+")
    ++ (if power.length < 2 then "0" else "") ++ power

def trimZeros (digits : List Char) : List Char :=
  (digits.reverse.dropWhile (· = '0')).reverse

/-- The text of a number. Powers of ten from the fourth negative one to the fifteenth are written
without an exponent. -/
def text : Binary64 → String
  | nan => "nan"
  | infinite negative => if negative then "-inf" else "inf"
  | finite negative significand exponent =>
    (if negative then "-" else "") ++
      if significand = 0 then "0.0"
      else
        let (n, last) := shortest significand exponent
        let all := Nat.toDigits 10 n
        let first := last + (all.length : Int) - 1
        let digits := trimZeros all
        if -4 ≤ first ∧ first < 16 then positional digits first else exponential digits first

end TypeTrace.Binary64
