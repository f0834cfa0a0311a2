import TypeTrace.Files.Path
import TypeTrace.Files.Utf8

/-!
# File trees

A file tree is what a program can see of a disk: files, directories and links, each at a location
that is reached from the root without a link or two dots, and the directory in which the program
runs. Paths lead to locations by following links.
-/

namespace TypeTrace

/-- A location: the names of the directories from the root on, and the last name. -/
abbrev Location := List String

inductive FileEntry where
  | file (bytes : List UInt8)
  | link (target : String)
  | directory
deriving DecidableEq, Inhabited

/-- A file tree. The root is a directory and has no entry. -/
structure FileTree where
  entries : List (Location × FileEntry)
  current : Location
deriving Inhabited

inductive OsCause where
  | notFound | exists | notDirectory | isDirectory | busy | tooManyLinks | noName
deriving DecidableEq

namespace OsCause

def number : OsCause → Nat
  | notFound => 2
  | busy => 16
  | .exists | noName => 17
  | notDirectory => 20
  | isDirectory => 21
  | tooManyLinks => 40

def words : OsCause → String
  | notFound => "No such file or directory"
  | busy => "Device or resource busy"
  | .exists => "File exists"
  | notDirectory => "Not a directory"
  | isDirectory => "Is a directory"
  | tooManyLinks => "Too many levels of symbolic links"
  | noName => "No usable temporary file name found"

end OsCause

/-- A failed operation: why, and on which path, if on one, or from which path to which. -/
structure OsError where
  cause : OsCause
  path : Option String
  other : Option String
deriving DecidableEq

def OsError.message (e : OsError) : String :=
  "[Errno " ++ toString e.cause.number ++ "] " ++ e.cause.words
    ++ (e.path.map fun path => ": " ++ Text.quoted path).getD ""
    ++ (e.other.map fun other => " -> " ++ Text.quoted other).getD ""

/-- Why a path cannot be used, as opposed to what it leads to: it is resolved in a circle, or a call is
given a null character in it. -/
inductive PathFault where
  | circle (path : Path)
  | nullCharacter (call argument : String)
  | nullByte
deriving DecidableEq

def PathFault.message : PathFault → String
  | circle path => "Symlink loop from " ++ Text.quoted path.text
  | nullCharacter call argument => call ++ ": embedded null character in " ++ argument
  | nullByte => "embedded null byte"

inductive ReadError where
  | os (error : OsError)
  | path (fault : PathFault)
  | undecodable (fault : Utf8.Fault)
deriving DecidableEq

namespace FileTree

def get? (files : FileTree) (place : Location) : Option FileEntry :=
  if place.isEmpty then some .directory else files.entries.lookup place

def base (files : FileTree) (p : Path) : Location :=
  if p.isAbsolute then [] else files.current

/-- Follows parts from a location on. The last part may be absent, and it may be a link if `follow`
does not hold; other links lead on, by way of `jump`. -/
def along (files : FileTree) (jump : Location → List String → Except OsCause Location)
    (follow : Bool) : Location → List String → Except OsCause Location
  | here, [] => .ok here
  | here, part :: parts =>
    if part = ".." then along files jump follow here.dropLast parts
    else
      let next := here ++ [part]
      match files.get? next with
      | none => if parts.isEmpty then .ok next else .error .notFound
      | some .directory => along files jump follow next parts
      | some (.file _) => if parts.isEmpty then .ok next else .error .notDirectory
      | some (.link target) =>
        if parts.isEmpty && !follow then .ok next
        else
          let path := Path.ofText target
          jump (if path.isAbsolute then [] else here) (path.parts ++ parts)

def follow (files : FileTree) (last : Bool) :
    (links : Nat) → Location → List String → Except OsCause Location
  | 0 => along files (fun _ _ => .error .tooManyLinks) last
  | links + 1 => along files (follow files last links) last

def linkLimit : Nat := 40

def locate (files : FileTree) (p : Path) : Except OsCause Location :=
  files.follow true linkLimit (files.base p) p.parts

/-- The location that a path names, which is not followed if it is a link. -/
def locateSelf (files : FileTree) (p : Path) : Except OsCause Location :=
  files.follow false linkLimit (files.base p) p.parts

def find? (files : FileTree) (p : Path) : Option FileEntry :=
  match files.locate p with
  | .ok place => files.get? place
  | .error _ => none

def pathExists (files : FileTree) (p : Path) : Bool := (files.find? p).isSome

def isDirectory (files : FileTree) (p : Path) : Bool := files.find? p == some .directory

def fileBytes? (files : FileTree) (p : Path) : Option (List UInt8) :=
  match files.find? p with
  | some (.file bytes) => some bytes
  | _ => none

def isFile (files : FileTree) (p : Path) : Bool := (files.fileBytes? p).isSome

def readBytes (files : FileTree) (p : Path) : Except OsCause (List UInt8) :=
  match files.locate p with
  | .error cause => .error cause
  | .ok place =>
    match files.get? place with
    | some (.file bytes) => .ok bytes
    | some .directory => .error .isDirectory
    | _ => .error .notFound

def readText (files : FileTree) (p : Path) : Except ReadError String :=
  if p.holdsNull then .error (.path .nullByte)
  else
    match files.readBytes p with
    | .error cause => .error (.os ⟨cause, some p.text, none⟩)
    | .ok bytes => (Utf8.readText bytes).mapError .undecodable

/-- The location that a path names when two dots are taken back against what stands before them. -/
def spot (files : FileTree) (p : Path) : Location := Path.foldDots (files.base p).reverse p.parts

/-- Where a path leads once its links are resolved: to a path without links, or in a circle back to a
link that is being resolved already, with parts still ahead. -/
inductive Resolution where
  | done (path : Path)
  | circle (link : Path) (ahead : List String)
deriving DecidableEq

/-- Resolves parts from a path without links on: what links stand for is left to `enter`, and two dots
are taken back, whether what they lead through is there or not. -/
def resolveAlong (files : FileTree) (enter : Path → Path → List String → Resolution) :
    Path → List String → Resolution
  | here, [] => .done here
  | here, part :: parts =>
    if part = ".." then resolveAlong files enter here.above parts
    else
      let next := here.child part
      match files.get? (files.spot next) with
      | some (.link target) =>
        let path := Path.ofText target
        match enter next (if path.isAbsolute then ⟨.root, []⟩ else here) path.parts with
        | .done there => resolveAlong files enter there parts
        | .circle link ahead => .circle link (ahead ++ parts)
      | _ => resolveAlong files enter next parts

/-- Resolves parts through links within links, up to a depth. `entered` are the links that are being
resolved, known by the paths that lead to them. -/
def resolveFrom (files : FileTree) :
    (depth : Nat) → (entered : List Path) → Path → List String → Resolution
  | 0, _ => .circle
  | depth + 1, entered =>
    resolveAlong files fun link here parts =>
      if entered.contains link then .circle link []
      else resolveFrom files depth (link :: entered) here parts

def nestingLimit : Nat := 4096

/-- The path that a resolution ends at. What lies behind a circle is left as it stands. -/
def Resolution.path : Resolution → Path
  | .done p => p
  | .circle link ahead => { link with parts := link.parts ++ ahead }

def resolution (files : FileTree) (p : Path) (parts : List String) : Resolution :=
  files.resolveFrom nestingLimit [] ⟨if p.isAbsolute then .root else .relative, []⟩ parts

def resolve (files : FileTree) (p : Path) : Path :=
  ⟨.root, files.spot (files.resolution p p.parts).path⟩

def circles (files : FileTree) (p : Path) : Bool :=
  match files.locate (files.resolve p) with
  | .error .tooManyLinks => true
  | _ => false

/-- Whether a null character is met while the parts of a path are looked up one after the other. Behind
a circle they are not. -/
def meetsNull (files : FileTree) (p : Path) : Bool :=
  p.holdsNull && match files.resolution p (p.parts.takeWhile fun part => !Path.isNull part) with
    | .done _ => true
    | .circle .. => false

/-- The resolved path of one that can be resolved. -/
def settle (files : FileTree) (p : Path) : Except PathFault Path :=
  let resolved := files.resolve p
  if files.meetsNull p then .error (.nullCharacter "lstat" "path")
  else if resolved.holdsNull then .error (.nullCharacter "stat" "path")
  else if files.circles p then .error (.circle resolved)
  else .ok resolved

def names (files : FileTree) (place : Location) : List String :=
  files.entries.filterMap fun (location, _) =>
    match location.getLast? with
    | some name => if location.dropLast = place then some name else none
    | none => none

/-- The directories below a directory at any depth, not through links: their parts from it on. -/
def directoriesBelow (files : FileTree) (place : Location) : List (List String) :=
  files.entries.filterMap fun (location, entry) =>
    if entry = .directory ∧ place.isPrefixOf location ∧ location.length ≠ place.length then
      some (location.drop place.length)
    else none

def put (files : FileTree) (place : Location) (entry : FileEntry) : FileTree :=
  if files.entries.any fun (location, _) => location == place then
    { files with entries := files.entries.map fun (location, old) =>
        (location, if location = place then entry else old) }
  else { files with entries := files.entries ++ [(place, entry)] }

def erase (files : FileTree) (place : Location) : FileTree :=
  { files with entries := files.entries.filter fun (location, _) => !(location == place) }

end FileTree

end TypeTrace
