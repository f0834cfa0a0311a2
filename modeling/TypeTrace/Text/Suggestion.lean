/-!
# Suggestions

Names that somebody may have meant who wrote another one: those that few edits lead to. An edit adds,
drops or exchanges a character, or swaps two that stand side by side; capitals count as one edit
altogether.
-/

namespace TypeTrace.Text

/-- A row of the table of edit distances, from its second cell on: how many edits lead from a prefix of
one text, which ends in `a`, to the prefixes of another one, which goes on with `bs`. `left` is the
cell before, `up` the row above from the cell before on, and `upper` the row above that one from the
cell before the cell before on. The characters before are `a'` and `b'`. -/
def distanceRow (a : Char) (a' b' : Option Char) (left : Nat) (upper : List Nat) :
    (up : List Nat) → (bs : List Char) → List Nat
  | diagonal :: above :: up, b :: bs =>
    let edited := Nat.min (Nat.min (above + 1) (left + 1)) (if a = b then diagonal else diagonal + 1)
    let swapped := if a' = some b ∧ b' = some a then upper.head?.map (· + 1) else none
    let cell := Nat.min edited (swapped.getD edited)
    cell :: distanceRow a a' (some b) cell (if b'.isSome then upper.tail else upper) (above :: up) bs
  | _, _ => []

/-- The last row of the table of edit distances, with the characters of one text taken in turn; `row`
counts them. -/
def distanceRows (a' : Option Char) (upper up : List Nat) (row : Nat) (bs : List Char) :
    List Char → List Nat
  | [] => up
  | a :: as =>
    let here := row + 1
    distanceRows (some a) up (here :: distanceRow a a' none here upper up bs) here bs as

def editDistance (as bs : List Char) : Nat :=
  ((distanceRows none [] (List.range (bs.length + 1)) 0 bs as).getLast?).getD 0

def distance (written option : String) : Nat :=
  if written = option then 0
  else
    let as := written.toList.map Char.toLower
    let bs := option.toList.map Char.toLower
    if as = bs then 1 else editDistance as bs

/-- The parts of a name by which names are put in order: runs of digits count as numbers. -/
inductive NamePart where
  | word (cs : List Char)
  | number (value : Nat) (digits : List Char)
deriving DecidableEq

namespace NamePart

def before : NamePart → NamePart → Bool
  | word cs, word ds => cs < ds
  | number m cs, number n ds => m < n || (m = n && cs < ds)
  | word _, number .. => true
  | number .., word _ => false

/-- The parts of a name, words and numbers in turn; `word` holds, last first, the current word and
`digits` the current number. -/
def split (word digits : List Char) : List Char → List NamePart
  | [] =>
    if digits.isEmpty then [.word word.reverse]
    else [.word word.reverse, .number (value digits.reverse) digits.reverse, .word []]
  | c :: cs =>
    if c.isDigit then split word (c :: digits) cs
    else if digits.isEmpty then split (c :: word) [] cs
    else
      .word word.reverse :: .number (value digits.reverse) digits.reverse :: split [c] [] cs
where
  value (digits : List Char) : Nat := digits.foldl (fun n c => n * 10 + (c.toNat - '0'.toNat)) 0

def notAfter : List NamePart → List NamePart → Bool
  | [], _ => true
  | _ :: _, [] => false
  | p :: ps, q :: qs => p.before q || (p = q && notAfter ps qs)

end NamePart

def suggestions (written : String) (options : List String) : List String :=
  let limit := written.length * 2 / 5 + 1
  let near := options.eraseDups.filter fun option => distance written option ≤ limit
  near.mergeSort fun a b =>
    let (m, n) := (distance written a, distance written b)
    m < n || (m = n && NamePart.notAfter (NamePart.split [] [] a.toList) (NamePart.split [] [] b.toList))

/-- A question whether one of some names was meant, of at most five; nothing if there are none. -/
def didYouMean (names : List String) : String :=
  let quotedNames := (names.take 5).map fun name => "'" ++ name ++ "'"
  match quotedNames.getLast?, quotedNames.dropLast with
  | none, _ => ""
  | some last, [] => " Did you mean " ++ last ++ "?"
  | some last, [first] => " Did you mean " ++ first ++ " or " ++ last ++ "?"
  | some last, others => " Did you mean " ++ String.intercalate ", " others ++ ", or " ++ last ++ "?"

end TypeTrace.Text
