import TypeTrace.Config
import TypeTrace.Files.Tree
import TypeTrace.Notice
import TypeTrace.Text.Blank
import TypeTrace.Yaml.Value.Build

/-!
# Reading configurations

A configuration is a mapping from some names to values, in a YAML file. Every name has a sort of values
of its own, and a name that is not there leaves the setting as it is by default.
-/

namespace TypeTrace.Config

/-- Why there is no configuration: its file is not as it should be, or it settles something that
cannot be settled, or settles it in a way that is not allowed. -/
inductive Fault where
  | notFound (path : Path)
  | path (fault : PathFault)
  | unreadable (error : OsError)
  | undecodable (fault : Utf8.Fault)
  | malformed (path : Path) (source : String) (cause : Yaml.Malformed)
  | badValue (cause : Yaml.BadValue)
  | notMapping (path : Path)
  | unorderedKeys
  | unknownKeys (keys : List Yaml.Value)
  | notTexts (key : String)
  | noSchema
  | unknownKinds (kinds : List String)
  | badSize
  | badFlag
  | absolutePatterns (patterns : List String)

def Fault.malformedStem (path : Path) : String := "Invalid YAML config file at " ++ path.text ++ ":"

def Fault.message : Fault → String
  | notFound p => "Config file not found: " ++ p.text
  | path fault => fault.message
  | unreadable error => error.message
  | undecodable fault => fault.message
  | malformed p source cause => malformedStem p ++ " " ++ cause.message source
  | badValue cause => cause.message
  | notMapping p => "Config file at " ++ p.text ++ " must be a YAML mapping"
  | unorderedKeys => "config keys cannot be put in order"
  | unknownKeys keys =>
    "unknown config keys: [" ++ String.intercalate ", " (keys.map Yaml.Value.shown) ++ "]"
  | notTexts key => key ++ " must be a list of strings"
  | noSchema => "schema must name at least one SDL file"
  | unknownKinds kinds =>
    "kinds must be drawn from " ++ Text.quotedList tracedKinds ++ ", got " ++ Text.quotedList kinds
  | badSize => "max_file_kb must be a positive integer"
  | badFlag => "fail_on_unresolved must be a boolean"
  | absolutePatterns patterns =>
    "documents patterns must be relative to the root, got " ++ Text.quotedList patterns

/-! ### Settings -/

def keys : List String := ["schema", "documents", "kinds", "max_file_kb", "fail_on_unresolved"]

/-- The texts that a value lists; nothing lists nothing. -/
def textsOf? : Yaml.Value → Option (List String)
  | .null => some []
  | .list items =>
    items.mapM fun
      | .text text => some text
      | _ => none
  | .pairs [] => some []
  | _ => none

/-- Texts without the blank space around them, and without those that are nothing else. -/
def clean (texts : List String) : List String := (texts.map Text.strip).filter (· ≠ "")

def listSetting (key : String) (value : Yaml.Value) : Except Fault (List String) :=
  match textsOf? value with
  | some texts => .ok (clean texts)
  | none => .error (.notTexts key)

/-- The files of the schema, of which there is at least one. A single one need not be in a list. -/
def schemaSetting (value : Yaml.Value) : Except Fault (List String) := do
  let listed := match value with
    | .text text => .list [.text text]
    | other => other
  let paths ← listSetting "schema" listed
  if paths.isEmpty then .error .noSchema else .ok paths

def kindsSetting (value : Yaml.Value) : Except Fault (List String) := do
  let kinds ← listSetting "kinds" value
  let unknown := kinds.filter fun kind => !tracedKinds.contains kind
  if unknown.isEmpty then .ok kinds
  else .error (.unknownKinds (unknown.eraseDups.mergeSort fun a b => a ≤ b))

def sizeSetting : Yaml.Value → Except Fault Int
  | .int n => if 0 < n then .ok n else .error .badSize
  | _ => .error .badSize

def flagSetting : Yaml.Value → Except Fault Bool
  | .bool value => .ok value
  | _ => .error .badFlag

def patternsSetting (value : Yaml.Value) : Except Fault (List String) := do
  let patterns ← listSetting "documents" value
  let absolute := patterns.filter fun pattern => (Path.ofText pattern).isAbsolute
  if absolute.isEmpty then .ok patterns else .error (.absolutePatterns absolute)

def setting {α : Type} (entries : List (Yaml.Value × Yaml.Value)) (key : String)
    (read : Yaml.Value → Except Fault α) (standard : α) : Except Fault α :=
  match Yaml.Value.get? key entries with
  | some value => read value
  | none => .ok standard

def isKnown : Yaml.Value → Bool
  | .text name => keys.contains name
  | _ => false

def checkKeys (entries : List (Yaml.Value × Yaml.Value)) : Except Fault Unit :=
  let unknown := (entries.map (·.1)).filter fun key => !isKnown key
  if unknown.isEmpty then .ok ()
  else
    match Yaml.Value.sorted? unknown with
    | some sorted =>
      if sorted.all Yaml.Value.isWritable then .error (.unknownKeys sorted)
      else .error (.badValue .unwritable)
    | none => .error .unorderedKeys

def ofEntries (entries : List (Yaml.Value × Yaml.Value)) : Except Fault Config := do
  checkKeys entries
  let schemaPaths ← setting entries "schema" schemaSetting standard.schemaPaths
  let kinds ← setting entries "kinds" kindsSetting standard.kinds
  let maxFileKb ← setting entries "max_file_kb" sizeSetting standard.maxFileKb
  let failOnUnresolved ←
    setting entries "fail_on_unresolved" flagSetting standard.failOnUnresolved
  let patterns ← setting entries "documents" patternsSetting standard.patterns
  return { schemaPaths, patterns, kinds, maxFileKb, failOnUnresolved }

/-- The configuration that a value is. Nothing settles nothing. -/
def ofValue (path : Path) : Yaml.Value → Except Fault Config
  | .null => ofEntries []
  | .mapping entries => ofEntries entries
  | _ => .error (.notMapping path)

/-! ### Files -/

def ofText (path : Path) (text : String) : Except Fault Config :=
  match Yaml.Value.ofText text with
  | .error (.malformed cause) => .error (.malformed path text cause)
  | .error (.badValue cause) => .error (.badValue cause)
  | .ok value => ofValue path value

def readFile (files : FileTree) (path : Path) : Except Fault Config :=
  match files.readText path with
  | .error (.os error) => .error (.unreadable error)
  | .error (.path fault) => .error (.path fault)
  | .error (.undecodable fault) => .error (.undecodable fault)
  | .ok text => ofText path text

/-- Where the configuration of a workspace is looked for: in a given file, or in the customary one at
its root, which is resolved in any case. -/
def filePath (files : FileTree) (root : Path) (given : Option Path) : Except PathFault Path := do
  let root ← files.settle root
  match given with
  | some path => files.settle path
  | none => return root.child fileName

/-- The configuration of a workspace. A file that is given has to be there, the customary one need
not. -/
def load (files : FileTree) (root : Path) (given : Option Path) : Noting Fault Config := do
  let path ← Noting.lift .path (filePath files root given)
  if files.pathExists path then Noting.lift id (readFile files path)
  else if given.isSome then throw (.notFound path)
  else
    Noting.note (.noConfig path.text)
    return standard

end TypeTrace.Config
