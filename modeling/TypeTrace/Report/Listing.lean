import TypeTrace.Trace

/-!
# Trace reports for reading

The report of a trace as an indented listing with a summary. Unresolved entries are marked at the
left margin. In colour, the mark, the context of an entry and the number of unresolved entries are
wrapped in colour sequences and nothing else changes.
-/

namespace TypeTrace.Report

inductive Colour where
  | red | green | dim

def Colour.on : Colour → String
  | red => "\x1b[31m"
  | green => "\x1b[32m"
  | dim => "\x1b[2m"

def colourOff : String := "\x1b[0m"

def paint (coloured : Bool) (colour : Colour) (text : String) : String :=
  if coloured then colour.on ++ text ++ colourOff else text

/-- What stands for something absent. An empty text counts as absent. -/
def orDash : Option String → String
  | some text => if text.isEmpty then "-" else text
  | none => "-"

def location (e : Entry) : String :=
  match e.line with
  | none => "-"
  | some line =>
    toString line ++ ":" ++ match e.column with
      | some column => toString column
      | none => "None"

def label (e : Entry) : String :=
  match e.name with
  | some name => if name.isEmpty then e.kind else e.kind ++ " " ++ name
  | none => e.kind

def context (e : Entry) : String :=
  "type=" ++ orDash e.type ++ " parent=" ++ orDash e.parent ++ " input=" ++ orDash e.input

def entryLine (coloured : Bool) (e : Entry) : String :=
  let mark := if e.resolved then " " else paint coloured .red "!"
  let indent := String.ofList (List.replicate (2 * (e.depth + 1)).toNat ' ')
  mark ++ indent ++ label e ++ " [" ++ location e ++ "] " ++ paint coloured .dim (context e)

def documentSection (coloured : Bool) (d : DocumentTrace) : String :=
  String.intercalate "\n" (d.path :: d.entries.map (entryLine coloured))

def summary (coloured : Bool) (r : TraceResult) : String :=
  let schema := String.intercalate ", " r.schemaPaths
  let unresolved := paint coloured (if r.unresolvedCount = 0 then .green else .red)
    (toString r.unresolvedCount)
  String.intercalate "\n"
    ["  Trace summary",
     "  " ++ String.ofList (List.replicate 38 '─'),
     "  Schema      " ++ (if schema.isEmpty then "-" else schema),
     "  Documents   " ++ toString r.documents.length,
     "  Entries     " ++ toString r.entryCount,
     "  Unresolved  " ++ unresolved]

/-- The listing of a trace: a section for each document, unless only the summary is wanted, and the
summary. Empty sections are left out. -/
def listing (coloured summaryOnly : Bool) (r : TraceResult) : String :=
  let documents := if summaryOnly then [] else r.documents.map (documentSection coloured)
  String.intercalate "\n\n" ((documents ++ [summary coloured r]).filter fun s => !s.isEmpty)

end TypeTrace.Report
