import TypeTrace.CommandLine.Switch

/-!
# Usage and help

The usage of a form of the command line shows all that it takes, within 78 columns. Its help adds a
table: what is taken on the left, and what it is for on the right, beginning in one column.
-/

namespace TypeTrace.CommandLine

def lineWidth : Nat := 78

/-- Words on lines of at most a width after a line that has been begun. -/
def fillAfter (width : Nat) (line : String) : List String → List String
  | [] => [line]
  | word :: words =>
    if line.length + 1 + word.length ≤ width then fillAfter width (line ++ " " ++ word) words
    else line :: fillAfter width word words

/-- Words on lines of at most a width, on each line as many as fit. A word that is too long has a
line of its own. -/
def fill (width : Nat) : List String → List String
  | [] => []
  | word :: words => fillAfter width word words

def blanks (n : Nat) : String := String.ofList (List.replicate n ' ')

namespace Switch

def withValue (s : Switch) (name : String) : String :=
  match s.valueName? with
  | some value => name ++ " " ++ value
  | none => name

/-- A switch in a usage: by its first name, in brackets if it may be left out. -/
def usage (s : Switch) : String :=
  let body := s.withValue (s.names.headD "")
  if s.isRequired then body else "[" ++ body ++ "]"

end Switch

namespace Form

def commandWord? (form : Form) : Option String :=
  if form.commands.isEmpty then none
  else some ("\x7b" ++ String.intercalate "," (form.commands.map Prod.fst) ++ "\x7d")

/-- The usage of a form. All lines but the first one begin below the first switch. -/
def usage (form : Form) : String :=
  let start := "usage: " ++ form.title ++ " "
  let command := match form.commandWord? with
    | some word => [word, "..."]
    | none => []
  let lines := fill (lineWidth - start.length) (form.switches.map Switch.usage ++ command)
  start ++ String.intercalate ("\n" ++ blanks start.length) lines

end Form

/-- A row of a help table: how far it is set in, what it is about, and what is said about that. -/
structure HelpRow where
  indent : Nat
  subject : String
  words : List String

namespace HelpRow

def width (row : HelpRow) : Nat := row.indent + row.subject.length

/-- The widest left part that is set beside its right part, with the gap between them. -/
def widestLeft : Nat := 24

def column (rows : List HelpRow) : Nat :=
  Nat.min (rows.foldl (fun widest row => max widest row.width) 0 + 2) widestLeft

/-- The lines of a row. A left part that leaves no gap has a line of its own. -/
def lines (column : Nat) (row : HelpRow) : List String :=
  let left := blanks row.indent ++ row.subject
  match fill (lineWidth - column) row.words with
  | [] => [left]
  | first :: others =>
    let others := others.map (blanks column ++ ·)
    if row.width + 2 ≤ column then (left ++ blanks (column - row.width) ++ first) :: others
    else left :: (blanks column ++ first) :: others

def ofSwitch (s : Switch) : HelpRow :=
  ⟨2, String.intercalate ", " (s.names.map s.withValue), s.purpose.splitOn " "⟩

def ofCommands (form : Form) : List HelpRow :=
  match form.commandWord? with
  | some word =>
    ⟨2, word, []⟩ :: form.commands.map fun (name, purpose) => ⟨4, name, purpose.splitOn " "⟩
  | none => []

end HelpRow

namespace Form

def helpSection (column : Nat) (title : String) (rows : List HelpRow) : List String :=
  if rows.isEmpty then []
  else [String.intercalate "\n" (title :: rows.flatMap (HelpRow.lines column))]

def help (form : Form) : String :=
  let commands := HelpRow.ofCommands form
  let switches := form.switches.map HelpRow.ofSwitch
  let column := HelpRow.column (commands ++ switches)
  String.intercalate "\n\n"
    (form.usage :: form.purpose?.toList
      ++ helpSection column "positional arguments:" commands
      ++ helpSection column "options:" switches)

end Form

end TypeTrace.CommandLine
