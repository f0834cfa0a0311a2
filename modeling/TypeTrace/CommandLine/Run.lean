import TypeTrace.CommandLine.Invocation
import TypeTrace.Report.File
import TypeTrace.Report.Listing

/-!
# Runs of the program

A run takes the arguments and the files as they are and has an outcome: an exit code, what is printed,
what is noted and said to be wrong, and the changes made to the files. Only a report is ever written.
-/

namespace TypeTrace.CommandLine

/-- A fault that a run has no answer to. -/
inductive Uncaught where
  | workspace (fault : Workspace.Fault)
  | report (fault : AtomicWrite.Fault)

def Uncaught.message : Uncaught → String
  | workspace fault => fault.message
  | report fault => fault.message

/-- What comes of a run. It ends with an exit code, or with a fault that it has no answer to. The
errors come after all notices. -/
structure Outcome where
  ending : Except Uncaught Nat
  output : String
  notices : List Notice
  errors : List String
  changes : List Change
  files : FileTree

namespace Outcome

def quiet (files : FileTree) (notices : List Notice) (ending : Except Uncaught Nat)
    (errors : List String) : Outcome :=
  ⟨ending, "", notices, errors, [], files⟩

def errorStream (outcome : Outcome) : String :=
  String.join ((outcome.notices.map Notice.line ++ outcome.errors).map (· ++ "\n"))

end Outcome

/-- How a fault is reported: the exit code and the words before its message. A path that cannot be used,
a file that is no text and a pattern that is none are not reported, and neither are keys and values that
settings cannot be read from. -/
def report? : Workspace.Fault → Option (Nat × String)
  | .path _ | .pattern _ => none
  | .config (.path _) | .config (.unreadable _) | .config (.undecodable _) => none
  | .config (.badValue _) | .config .unorderedKeys => none
  | .config _ => some (2, "Configuration error: ")
  | .schema (.path _) | .schema (.undecodable _) => none
  | .schema _ => some (1, "Trace error: ")
  | .document (.path _) | .document (.undecodable _) | .document (.walk _) => none
  | .document _ => some (1, "Trace error: ")

/-- The notices that are shown: all, or those that matter more than what helps to find faults. -/
def shown (verbose : Bool) (notices : List Notice) : List Notice :=
  notices.filter fun n => verbose || Level.info.rank ≤ n.level.rank

/-- The text of a report as data. The output takes a number of any length. -/
def dataText (r : TraceResult) : String := (Report.payload r).fullText.toOption.getD ""

def present (p : Presentation) (terminal : Bool) (r : TraceResult) : String :=
  if p.silent then ""
  else if p.asData then dataText r ++ "\n"
  else Report.listing (!p.plain && terminal) p.summaryOnly r ++ "\n"

namespace TraceCommand

/-- The settings under which a trace is made: those of the workspace, unless the command is stricter. -/
def settings (c : TraceCommand) (files : FileTree) (root : Path) : Noting Workspace.Fault Config := do
  let config ← (Config.load files root c.config).mapError .config
  return if c.failOnUnresolved then { config with failOnUnresolved := true } else config

def trace (c : TraceCommand) (files : FileTree) (root : Path) :
    Noting Workspace.Fault (Config × TraceResult) := do
  let config ← c.settings files root
  let result ← Workspace.trace files ⟨root, c.schemas, c.documents⟩ config
  return (config, result)

def exitCode (config : Config) (r : TraceResult) : Nat :=
  if config.failOnUnresolved && r.unresolvedCount ≠ 0 then 1 else 0

def writeReport (naming : AtomicWrite.Naming) (c : TraceCommand) (r : TraceResult) :
    AtomicWrite.Step Unit :=
  match c.outputDirectory with
  | some directory => discard (Report.writeFile naming directory r)
  | none => pure ()

/-- Writes and prints a trace. What could not be written is not printed either. -/
def deliver (naming : AtomicWrite.Naming) (c : TraceCommand) (files : FileTree) (terminal : Bool)
    (notices : List Notice) (config : Config) (r : TraceResult) : Outcome :=
  let (files, changes, written) := AtomicWrite.run files (c.writeReport naming r)
  match written with
  | .error (.os error) =>
    ⟨.ok 1, "", notices, ["Failed to write trace report: " ++ error.message], changes, files⟩
  | .error fault => ⟨.error (.report fault), "", notices, [], changes, files⟩
  | .ok _ =>
    ⟨.ok (exitCode config r), present c.presentation terminal r, notices, [], changes, files⟩

def runFrom (naming : AtomicWrite.Naming) (c : TraceCommand) (files : FileTree) (terminal : Bool)
    (root : Path) : Outcome :=
  if files.isDirectory root then
    match c.trace files root [] with
    | .ok (config, r) notices =>
      c.deliver naming files terminal (shown c.presentation.verbose notices) config r
    | .error fault notices =>
      let notices := shown c.presentation.verbose notices
      match report? fault with
      | some (code, words) => .quiet files notices (.ok code) [words ++ fault.message]
      | none => .quiet files notices (.error (.workspace fault)) []
  else
    .quiet files [] (.ok 2) ["Configuration error: root directory does not exist: " ++ root.text]

def run (naming : AtomicWrite.Naming) (c : TraceCommand) (files : FileTree) (terminal : Bool) :
    Outcome :=
  match files.settle c.root with
  | .error fault => .quiet files [] (.error (.workspace (.path fault))) []
  | .ok root => c.runFrom naming files terminal root

end TraceCommand

def run (naming : AtomicWrite.Naming) (files : FileTree) (terminal : Bool) (arguments : List String) :
    Outcome :=
  match Invocation.ofArguments arguments with
  | .tell text => ⟨.ok 0, text ++ "\n", [], [], [], files⟩
  | .refuse form fault =>
    .quiet files [] (.ok 2) [form.usage, form.title ++ ": error: " ++ fault.message]
  | .trace command => command.run naming files terminal

end TypeTrace.CommandLine
