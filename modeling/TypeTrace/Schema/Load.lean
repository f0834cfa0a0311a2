import TypeTrace.Files.Tree
import TypeTrace.Notice
import TypeTrace.Schema.Build
import TypeTrace.Text.Excerpt

/-!
# Schemas from files

A schema can be spread over files: it is what the texts of the files, one below the other, define.
-/

namespace TypeTrace.Schema

inductive LoadFault where
  | noFiles
  | unreadable (path : Path) (error : OsError)
  | path (fault : PathFault)
  | undecodable (fault : Utf8.Fault)
  | invalid (paths : List Path) (source : String) (fault : Fault)

def sourceTitle : String := "GraphQL request"

/-- The message of a fault, with an excerpt if there is a place in the text to show. -/
def Fault.details (source : String) : Fault → String
  | .unreadable fault =>
    fault.message ++ "\n\n" ++ Text.excerpt sourceTitle source fault.position
  | fault => fault.message

def LoadFault.message : LoadFault → String
  | noFiles => "No schema files given"
  | unreadable p error => "Failed to read schema file " ++ p.text ++ ": " ++ error.message
  | path fault => fault.message
  | undecodable fault => fault.message
  | invalid paths source fault =>
    "Invalid schema in " ++ String.intercalate ", " (paths.map Path.text) ++ ": "
      ++ fault.details source

def readPart (files : FileTree) (path : Path) : Except LoadFault String :=
  (files.readText path).mapError fun
    | .os error => .unreadable path error
    | .path fault => .path fault
    | .undecodable fault => .undecodable fault

/-- The text that files make up together: a line end stands between the texts of two of them. -/
def joinParts (parts : List String) : String := String.intercalate "\n" parts

def load (files : FileTree) (paths : List Path) : Noting LoadFault Schema := do
  if paths.isEmpty then throw .noFiles
  let parts ← Noting.lift id (paths.mapM (readPart files))
  let source := joinParts parts
  let schema ← Noting.lift (.invalid paths source) (ofText source)
  Noting.note (.schemaBuilt paths.length schema.types.length)
  return schema

end TypeTrace.Schema
