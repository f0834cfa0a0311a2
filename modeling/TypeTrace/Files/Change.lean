import TypeTrace.Files.Tree

/-!
# Changes to file trees

The steps that change a file tree one at a time, and plans that are made of them. A plan that fails
still has taken the steps before.
-/

namespace TypeTrace

inductive Change where
  | makeDirectory (place : Location)
  | create (place : Location)
  | append (place : Location) (bytes : List UInt8)
  | move (source target : Location)
  | remove (place : Location)
deriving DecidableEq

namespace FileTree

def bytesAt (files : FileTree) (place : Location) : List UInt8 :=
  match files.get? place with
  | some (.file bytes) => bytes
  | _ => []

def change (files : FileTree) : Change → FileTree
  | .makeDirectory place => files.put place .directory
  | .create place => files.put place (.file [])
  | .append place bytes => files.put place (.file (files.bytesAt place ++ bytes))
  | .move source target =>
    match files.get? source with
    | some entry => (files.erase source).put target entry
    | none => files
  | .remove place => files.erase place

def changeAll (files : FileTree) (changes : List Change) : FileTree := changes.foldl change files

/-- The location of a path whose last part need not be there, and is not followed if it is a link. The
directory that holds it has to be there. -/
def slot? (files : FileTree) (p : Path) : Except OsCause Location :=
  match files.locate p.parent with
  | .error cause => .error cause
  | .ok place =>
    match files.get? place with
    | some .directory => .ok (place ++ [p.name])
    | some (.file _) => .error .notDirectory
    | _ => .error .notFound

end FileTree

/-- A plan: steps on a file tree, which may fail. The changes are kept in order. -/
abbrev Plan (ε α : Type) := EStateM ε (FileTree × List Change) α

namespace Plan

variable {ε : Type}

def perform (c : Change) : Plan ε Unit :=
  modify fun (files, changes) => (files.change c, changes ++ [c])

def files : Plan ε FileTree := return (← get).1

end Plan

/-- Why a directory cannot be made where a path leads: something is there, or nothing leads there. -/
def FileTree.makeDirectory? (files : FileTree) (p : Path) : Except OsCause Location :=
  if p.parts.isEmpty then .error .exists
  else
    match files.slot? p with
    | .error cause => .error cause
    | .ok place =>
      if p.name = ".." ∨ (files.get? place).isSome then .error .exists else .ok place

def Plan.makeDirectory (p : Path) : Plan OsError Unit := do
  let files ← Plan.files
  match files.makeDirectory? p with
  | .ok place => perform (.makeDirectory place)
  | .error cause => if files.isDirectory p then pure () else throw ⟨cause, some p.text, none⟩

/-- Makes a directory and all that lead to it, of which at most `fuel` are missing. -/
def Plan.makeDirectories (p : Path) : (fuel : Nat) → Plan OsError Unit
  | 0 => makeDirectory p
  | fuel + 1 => do
    match (← Plan.files).makeDirectory? p with
    | .error .notFound =>
      makeDirectories p.parent fuel
      makeDirectory p
    | _ => makeDirectory p

end TypeTrace
