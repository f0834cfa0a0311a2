import TypeTrace.Files.Change
import TypeTrace.Json

/-!
# Writing a file at once

A file is written under another name in the same directory and then moved into place, so that at no
moment anybody finds half of it.
-/

namespace TypeTrace.AtomicWrite

inductive Fault where
  | os (error : OsError)
  | path (fault : PathFault)
  | value (fault : Json.Fault)
deriving DecidableEq

def Fault.message : Fault → String
  | os error => error.message
  | path fault => fault.message
  | value fault => fault.message

abbrev Step := Plan Fault

/-- A step that can only fail because of the files. -/
def onFiles {α : Type} (plan : Plan OsError α) : Step α := fun s =>
  match plan s with
  | .ok a s => .ok a s
  | .error error s => .error (.os error) s

/-- The names of temporary files: eight letters, digits and low lines between two fixed parts. -/
def IsTemporaryName (name : String) : Prop :=
  ∃ middle : List Char, middle.length = 8 ∧ (∀ c ∈ middle, c.isLower ∨ c.isDigit ∨ c = '_') ∧
    name = ".tmp-" ++ String.ofList middle ++ ".json"

/-- Where the names of temporary files come from. Of the names in a directory it knows which are taken,
and it may give up. -/
structure Naming where
  choose : List String → Option String
  isTemporary : ∀ taken, ∀ name ∈ choose taken, IsTemporaryName name
  isFree : ∀ taken, ∀ name ∈ choose taken, name ∉ taken

/-- The name with the last eight digits of a number. -/
def countedName (n : Nat) : String :=
  ".tmp-" ++ String.ofList ((List.range 8).map fun i => (n / Nat.pow 10 (7 - i) % 10).digitChar) ++ ".json"

theorem isTemporaryName_countedName (n : Nat) : IsTemporaryName (countedName n) := by
  have hdigit : ∀ d < 10, d.digitChar.isLower ∨ d.digitChar.isDigit ∨ d.digitChar = '_' := by decide
  refine ⟨_, by simp, ?_, rfl⟩
  intro c hc
  obtain ⟨i, -, rfl⟩ := List.mem_map.mp hc
  exact hdigit _ (Nat.mod_lt _ (by decide))

/-- Names are tried by number, one more than are taken. -/
def Naming.counting : Naming where
  choose taken :=
    ((List.range (taken.length + 1)).map countedName).find? fun name => !taken.contains name
  isTemporary taken name hname := by
    obtain ⟨n, -, rfl⟩ := List.mem_map.mp (List.mem_of_find?_eq_some hname)
    exact isTemporaryName_countedName n
  isFree taken name hname := by simpa using List.find?_some hname

/-- The directory of a path, from the root on and with two dots taken back against the parts before
them. -/
def absoluteParent (files : FileTree) (p : Path) : Path :=
  let start := if p.isAbsolute then [] else files.current
  ⟨if p.isAbsolute then p.anchor else .root, Path.foldDots [] (start ++ p.parent.parts)⟩

def createTemporary (naming : Naming) (p : Path) : Step (Path × Location) := do
  let files ← Plan.files
  let directory := absoluteParent files p
  let taken := ((files.locate directory).toOption.map files.names).getD []
  match naming.choose taken with
  | none => throw (.os ⟨.noName, none, none⟩)
  | some name =>
    let temporary := directory.child name
    match files.slot? temporary with
    | .error cause => throw (.os ⟨cause, some temporary.text, none⟩)
    | .ok place => do
      Plan.perform (.create place)
      return (temporary, place)

/-- Where a path puts what is moved to it. -/
def target? (files : FileTree) (p : Path) : Except OsCause Location :=
  if p.parts.isEmpty ∨ p.name = ".." then .error .busy
  else
    match files.slot? p with
    | .error cause => .error cause
    | .ok place => if files.get? place = some .directory then .error .isDirectory else .ok place

def moveInto (temporary : Path) (source : Location) (p : Path) : Step Unit := do
  if p.holdsNull then throw (.path (.nullCharacter "replace" "dst"))
  else
    match target? (← Plan.files) p with
    | .error cause => throw (.os ⟨cause, some temporary.text, some p.text⟩)
    | .ok target => Plan.perform (.move source target)

def prepare (p : Path) : Step Unit :=
  if p.parent.holdsNull then throw (.path (.nullCharacter "mkdir" "path"))
  else onFiles (Plan.makeDirectories p.parent p.parts.length)

/-- Writes a value to a path, with a line feed behind its text. A value that has no text leaves nothing
behind but directories. -/
def writeJson (naming : Naming) (p : Path) (value : Json) : Step Unit := do
  prepare p
  let (temporary, place) ← createTemporary naming p
  match value.render with
  | .error fault =>
    Plan.perform (.remove place)
    throw (.value fault)
  | .ok text =>
    Plan.perform (.append place (Utf8.bytesOf (text ++ "\n")))
    moveInto temporary place p

/-- The files after writing, the changes that led there, and the fault if there was one. -/
def run {α : Type} (files : FileTree) (step : Step α) : FileTree × List Change × Except Fault α :=
  match step (files, []) with
  | .ok a (files, changes) => (files, changes, .ok a)
  | .error fault (files, changes) => (files, changes, .error fault)

end TypeTrace.AtomicWrite
