import TypeTrace.CommandLine.Help
import TypeTrace.CommandLine.Reading
import TypeTrace.Workspace

/-!
# Invocations

What the arguments ask for: a text to show, or a trace. Arguments that ask for neither are refused in
the name of the form that cannot take them. A switch that asks for a text is followed at once, whatever
stands behind it.
-/

namespace TypeTrace.CommandLine

/-- How a trace is shown: as data or as a listing, in full or its summary only, in colour where that is
possible, or not at all. -/
structure Presentation where
  asData : Bool
  summaryOnly : Bool
  silent : Bool
  plain : Bool
  verbose : Bool
deriving DecidableEq, Inhabited

structure TraceCommand where
  root : Path
  config : Option Path
  schemas : List Path
  documents : List Path
  outputDirectory : Option Path
  failOnUnresolved : Bool
  presentation : Presentation
deriving DecidableEq

namespace Presentation

def heed (p : Presentation) (given : Given) : Presentation :=
  match given.switch with
  | .format => { p with asData := given.value = some "json" }
  | .summaryOnly => { p with summaryOnly := true }
  | .noOutput => { p with silent := true }
  | .noColour => { p with plain := true }
  | .verbose => { p with verbose := true }
  | _ => p

end Presentation

namespace TraceCommand

def unspecified : TraceCommand :=
  ⟨Path.ofText "", none, [], [], none, false, ⟨false, false, false, false, false⟩⟩

/-- A trace with one more switch heeded. Of values that exclude each other the last one counts. -/
def heed (c : TraceCommand) (given : Given) : TraceCommand :=
  let path := Path.ofText (given.value.getD "")
  match given.switch with
  | .root => { c with root := path }
  | .config => { c with config := some path }
  | .schema => { c with schemas := c.schemas ++ [path] }
  | .document => { c with documents := c.documents ++ [path] }
  | .outputDirectory => { c with outputDirectory := some path }
  | .failOnUnresolved => { c with failOnUnresolved := true }
  | _ => { c with presentation := c.presentation.heed given }

def ofGivens (givens : List Given) : TraceCommand := givens.foldl heed unspecified

end TraceCommand

inductive Invocation where
  | tell (text : String)
  | trace (command : TraceCommand)
  | refuse (form : Form) (fault : UsageFault)
deriving DecidableEq

namespace Invocation

def textOf? (form : Form) : Switch → Option String
  | .help => some form.help
  | .version => some (Form.program.title ++ " " ++ version)
  | _ => none

/-- What comes of a reading before its command is looked at: the text that its first telling switch asks
for, or its fault. -/
def early? (form : Form) (r : Reading) : Option Invocation :=
  match r.givens.findSome? fun given => textOf? form given.switch with
  | some text => some (.tell text)
  | none => r.fault.map (.refuse form)

def missing (form : Form) (r : Reading) : List Switch :=
  form.switches.filter fun s => s.isRequired && !r.givens.any fun given => given.switch = s

/-- What the arguments behind the command ask for, with what has been left over before it. -/
def ofTraceArguments (leftOver texts : List String) : Invocation :=
  let r := Reading.ofTexts .trace texts
  match early? .trace r, missing .trace r with
  | some invocation, _ => invocation
  | none, s :: more => .refuse .trace (.missing ((s :: more).map Switch.title))
  | none, [] =>
    if (leftOver ++ r.leftOver).isEmpty then .trace (TraceCommand.ofGivens r.givens)
    else .refuse .program (.leftOver (leftOver ++ r.leftOver))

def commandTitle : String := "command"

def ofArguments (texts : List String) : Invocation :=
  let r := Reading.ofTexts .program texts
  match early? .program r, r.command with
  | some invocation, _ => invocation
  | none, none => .refuse .program (.missing [commandTitle])
  | none, some (name, others) =>
    let names := Form.program.commands.map Prod.fst
    if names.contains name then ofTraceArguments r.leftOver others
    else .refuse .program (.badChoice commandTitle name names)

end Invocation

end TypeTrace.CommandLine
