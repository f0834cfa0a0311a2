import TypeTrace.CommandLine.Run

/-!
# The program

The files that a command can lead to are read into a file tree, the run is made on that tree, and its
changes are then made to the files themselves.
-/

namespace TypeTrace.CommandLine

def systemPath (place : Location) : String := "/" ++ String.intercalate "/" place

/-- All that is at a location and below it. Links that lead nowhere are passed over. -/
partial def survey (place : Location) : IO (List (Location × FileEntry)) := do
  let here ← IO.FS.realPath (systemPath place)
  let mut found := [(place, FileEntry.directory)]
  for item in (← here.readDir) do
    let inner := place ++ [item.fileName]
    match (← item.path.symlinkMetadata).type with
    | .dir => found := found ++ (← survey inner)
    | .file => found := found ++ [(inner, .file (← IO.FS.readBinFile item.path).toList)]
    | .symlink =>
      match ← (IO.FS.realPath item.path).toBaseIO with
      | .ok target => found := found ++ [(inner, .link target.toString)]
      | .error _ => pure ()
    | .other => pure ()
  return found

/-- The location of a directory, or of the one that holds a file. -/
def directoryAt? (p : Path) : IO (Option Location) := do
  for q in [p, p.parent] do
    match ← (IO.FS.realPath q.text).toBaseIO with
    | .ok found =>
      if (← found.isDir) then return some (Path.ofText found.toString).parts
    | .error _ => pure ()
  return none

def TraceCommand.paths (c : TraceCommand) : List Path :=
  c.root :: (c.config.toList ++ c.schemas ++ c.documents.map c.root.join
    ++ c.schemas.map c.root.join ++ c.documents ++ c.outputDirectory.toList)

/-- The locations in a list that are not below others. -/
def outermost (places : List Location) : List Location :=
  let places := places.eraseDups
  places.filter fun place => !places.any fun other => other ≠ place && other.isPrefixOf place

def upTo (place : Location) : List Location :=
  (List.range place.length).map fun n => place.take (n + 1)

def surveyFor (c : TraceCommand) : IO FileTree := do
  let current := (Path.ofText (← IO.currentDir).toString).parts
  let places := outermost (current :: (← c.paths.filterMapM fun p => directoryAt? p))
  let above := (places.flatMap upTo).map fun outer => (outer, FileEntry.directory)
  let found ← places.mapM fun place => survey place
  return ⟨above.eraseDups ++ (found.flatten.filter fun (place, _) => !places.contains place), current⟩

def carryOut : Change → IO Unit
  | .makeDirectory place => IO.FS.createDir (systemPath place)
  | .create place => IO.FS.writeBinFile (systemPath place) ByteArray.empty
  | .append place bytes =>
    IO.FS.withFile (systemPath place) .append fun file => file.write ⟨bytes.toArray⟩
  | .move source target => IO.FS.rename (systemPath source) (systemPath target)
  | .remove place => IO.FS.removeFile (systemPath place)

end TypeTrace.CommandLine

open TypeTrace CommandLine in
def main (arguments : List String) : IO UInt32 := do
  let files ← match Invocation.ofArguments arguments with
    | .trace command => surveyFor command
    | _ => pure ⟨[], []⟩
  let outcome := run .counting files (← (← IO.getStdout).isTty) arguments
  outcome.changes.forM carryOut
  IO.print outcome.output
  IO.eprint outcome.errorStream
  match outcome.ending with
  | .ok code => return code.toUInt32
  | .error fault =>
    IO.eprintln fault.message
    return 1
