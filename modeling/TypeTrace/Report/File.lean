import TypeTrace.Files.AtomicWrite
import TypeTrace.Report.Payload

/-!
# Trace reports in files
-/

namespace TypeTrace.Report

def fileName : String := "trace.json"

/-- Writes a report to a directory and gives the path of its file. -/
def writeFile (naming : AtomicWrite.Naming) (directory : Path) (r : TraceResult) :
    AtomicWrite.Step Path := do
  let path := directory.child fileName
  AtomicWrite.writeJson naming path (payload r)
  return path

end TypeTrace.Report
