import TypeTrace.Config.Load
import TypeTrace.Discovery
import TypeTrace.Schema.Load
import TypeTrace.Trace

/-!
# Tracing a workspace

A run over a workspace: its schema is loaded, its documents are found unless they are given, and each
of them is read and traced.
-/

namespace TypeTrace

inductive DocumentFault where
  | unreadable (path : Path) (error : OsError)
  | path (fault : PathFault)
  | undecodable (fault : Utf8.Fault)
  | invalid (path : Path) (fault : SyntaxFault)
  | walk (fault : Underflow)
deriving DecidableEq

def DocumentFault.message : DocumentFault → String
  | unreadable p error => "Failed to read document " ++ p.text ++ ": " ++ error.message
  | path fault => fault.message
  | undecodable fault => fault.message
  | invalid p fault => "Invalid document " ++ p.text ++ ": " ++ fault.message
  | walk fault => fault.message

namespace Workspace

inductive Fault where
  | path (fault : PathFault)
  | config (fault : Config.Fault)
  | schema (fault : Schema.LoadFault)
  | document (fault : DocumentFault)
  | pattern (fault : Glob.Fault)

def Fault.message : Fault → String
  | path fault => fault.message
  | config fault => fault.message
  | schema fault => fault.message
  | document fault => fault.message
  | pattern fault => fault.message

def readDocument (files : FileTree) (path : Path) : Except DocumentFault Node :=
  match files.readText path with
  | .error (.os error) => .error (.unreadable path error)
  | .error (.path fault) => .error (.path fault)
  | .error (.undecodable fault) => .error (.undecodable fault)
  | .ok text => (Node.parse text).mapError (.invalid path)

/-- The text by which a document is known in a report: seen from a resolved root if there is one. -/
def displayPath (files : FileTree) (root : Option Path) (path : Path) : Except PathFault String :=
  match root with
  | some root => return (← files.settle path).stableKey root
  | none => return path.text

def traceFile (files : FileTree) (schema : Schema) (kinds : List String) (root : Option Path)
    (path : Path) : Noting DocumentFault DocumentTrace := do
  let document ← Noting.lift id (readDocument files path)
  let entries ← Noting.lift .walk (Trace.ofDocument schema .standard kinds document)
  let name ← Noting.lift .path (displayPath files root path)
  let trace : DocumentTrace := ⟨name, entries⟩
  if trace.unresolved ≠ 0 then Noting.note (.unresolved trace.path trace.unresolved)
  return trace

def traceFiles (files : FileTree) (schema : Schema) (kinds : List String) (root : Option Path)
    (paths : List Path) : Noting DocumentFault (List DocumentTrace) := do
  let root ← Noting.lift .path (root.mapM files.settle)
  paths.mapM (traceFile files schema kinds root)

/-- What to trace: a workspace by its root, and, where they are given, the files of the schema and the
documents in place of those that the configuration names. -/
structure Request where
  root : Path
  schemas : List Path
  documents : List Path

def Request.schemaFiles (request : Request) (config : Config) (root : Path) : List Path :=
  (if request.schemas.isEmpty then config.schemaPaths.map Path.ofText else request.schemas).map root.join

def findDocuments (files : FileTree) (request : Request) (config : Config) (root : Path)
    (schemas : List Path) : Noting Glob.Fault (List Path) :=
  if request.documents.isEmpty then
    Discovery.run files ⟨root, config.patterns, config.maxFileKb, schemas⟩
  else return request.documents.map root.join

def trace (files : FileTree) (request : Request) (config : Config) : Noting Fault TraceResult := do
  let root ← Noting.lift .path (files.settle request.root)
  let schemas := request.schemaFiles config root
  let schema ← (Schema.load files schemas).mapError .schema
  let documents ← (findDocuments files request config root schemas).mapError .pattern
  let traces ← (traceFiles files schema config.kinds (some root) documents).mapError .document
  Noting.note (.traced traces.length)
  let resolved ← Noting.lift .path (schemas.mapM files.settle)
  return ⟨resolved.map fun path => path.stableKey root, traces⟩

end Workspace

end TypeTrace
