/-!
# Binary floating point

Numbers with a significand of 53 bits, computed exactly: a ratio is rounded to the nearest number, and
of two that are equally near to the even one.
-/

namespace TypeTrace

/-- A floating-point number. A finite one is its significand times two to its exponent. -/
inductive Binary64 where
  | finite (negative : Bool) (significand : Nat) (exponent : Int)
  | infinite (negative : Bool)
  | nan
deriving DecidableEq, Inhabited

namespace Binary64

def precision : Nat := 53

def significandBound : Nat := Nat.pow 2 precision

def leastExponent : Int := -1074

def greatestExponent : Int := 971

def scaleDown (num den : Nat) (e : Int) : Nat × Nat :=
  if 0 ≤ e then (num, den * Nat.pow 2 e.toNat) else (num * Nat.pow 2 (-e).toNat, den)

/-- The quotient of two numbers, rounded to the nearest whole number, and of two to the even one. -/
def roundQuotient (num den : Nat) : Nat :=
  let q := num / den
  let twice := 2 * (num % den)
  if den < twice ∨ (twice = den ∧ q % 2 = 1) then q + 1 else q

def ofRatio (negative : Bool) (num den : Nat) : Binary64 :=
  if num = 0 ∨ den = 0 then finite negative 0 leastExponent
  else
    let guess : Int := (num.log2 : Int) - (den.log2 : Int) - (precision : Int)
    let (n, d) := scaleDown num den guess
    let e := max leastExponent (if n / d < significandBound then guess else guess + 1)
    let (n, d) := scaleDown num den e
    let q := roundQuotient n d
    let (q, e) := if q = significandBound then (q / 2, e + 1) else (q, e)
    if greatestExponent < e then infinite negative else finite negative q e

def ofInt (n : Int) : Binary64 := ofRatio (n < 0) n.natAbs 1

/-- The number nearest to the number that decimal digits and a power of ten write. Exponents far out of
range need no computation. -/
def ofDecimal (negative : Bool) (digits : Nat) (exponent : Int) : Binary64 :=
  let size : Int := ((Nat.toDigits 10 digits).length : Int)
  if digits = 0 then finite negative 0 leastExponent
  else if 400 < size + exponent then infinite negative
  else if size + exponent < -400 then finite negative 0 leastExponent
  else if 0 ≤ exponent then ofRatio negative (digits * Nat.pow 10 exponent.toNat) 1
  else ofRatio negative digits (Nat.pow 10 (-exponent).toNat)

/-- A finite number as a ratio; `none` for the others. -/
def ratio? : Binary64 → Option (Int × Nat)
  | finite negative m e =>
    let (n, d) := scaleDown m 1 (-e)
    some (if negative then -(n : Int) else n, d)
  | _ => none

def neg : Binary64 → Binary64
  | finite negative m e => finite (!negative) m e
  | infinite negative => infinite !negative
  | nan => nan

/-- The number nearest to a sum. Only sums of finite numbers are asked for; any other is taken as no
number. -/
def add (a b : Binary64) : Binary64 :=
  match a.ratio?, b.ratio? with
  | some (n, d), some (m, e) =>
    let sum := n * e + m * d
    ofRatio (sum < 0) sum.natAbs (d * e)
  | _, _ => nan

def scale (a : Binary64) (factor : Nat) : Binary64 :=
  match a.ratio? with
  | some (n, d) => ofRatio (n < 0) (n.natAbs * factor) d
  | none => nan

end Binary64

end TypeTrace
