/-!
# Positions in a text

A position is what a reader of a report wants to see: a line and a column, both counted from one
and in characters. A line ends at a line feed, at a carriage return, or at the two together.
-/

namespace TypeTrace

/-- A place in a text, counted from one in both directions. -/
structure Position where
  line : Nat
  column : Nat
deriving DecidableEq, Inhabited

namespace Position

def start : Position := ⟨1, 1⟩

def nextLine (p : Position) : Position := ⟨p.line + 1, 1⟩

/-- `n` characters further on the same line. -/
def right (p : Position) (n : Nat) : Position := ⟨p.line, p.column + n⟩

/-- The position behind the character `c`, of which `rest` is what follows. A carriage return that
stands before a line feed leaves the end of the line to it. -/
def after (p : Position) (c : Char) (rest : List Char) : Position :=
  if c = '\n' then p.nextLine
  else if c = '\r' then
    match rest with
    | '\n' :: _ => p
    | _ => p.nextLine
  else p.right 1

def Valid (p : Position) : Prop := 1 ≤ p.line ∧ 1 ≤ p.column

theorem valid_start : start.Valid := ⟨Nat.le_refl _, Nat.le_refl _⟩

theorem Valid.nextLine {p : Position} (_ : p.Valid) : p.nextLine.Valid :=
  ⟨Nat.succ_pos _, Nat.le_refl _⟩

theorem Valid.right {p : Position} (h : p.Valid) (n : Nat) : (p.right n).Valid :=
  ⟨h.1, Nat.le_trans h.2 (Nat.le_add_right _ _)⟩

theorem Valid.after {p : Position} (h : p.Valid) (c : Char) (rest : List Char) :
    (p.after c rest).Valid := by
  unfold Position.after
  split
  · exact h.nextLine
  · split
    · split
      · exact h
      · exact h.nextLine
    · exact h.right 1

def text (p : Position) : String := toString p.line ++ ":" ++ toString p.column

end Position

end TypeTrace
