/-!
# Switches

The two forms of the command line and the switches that each of them takes: their names, the values
that they need, and what the help says about them.
-/

namespace TypeTrace.CommandLine

inductive Switch where
  | help | version | root | config | schema | document | outputDirectory | format
  | failOnUnresolved | summaryOnly | noOutput | noColour | verbose
deriving DecidableEq, Inhabited

namespace Switch

def names : Switch → List String
  | help => ["-h", "--help"]
  | version => ["--version"]
  | root => ["-r", "--root"]
  | config => ["-c", "--config"]
  | schema => ["-s", "--schema"]
  | document => ["-d", "--document"]
  | outputDirectory => ["-o", "--output-dir"]
  | format => ["--format"]
  | failOnUnresolved => ["--fail-on-unresolved"]
  | summaryOnly => ["--summary-only"]
  | noOutput => ["--no-stdout"]
  | noColour => ["--no-color"]
  | verbose => ["-v", "--verbose"]

def choices? : Switch → Option (List String)
  | format => some ["json", "text"]
  | _ => none

def valueName? : Switch → Option String
  | root => some "ROOT"
  | config => some "CONFIG"
  | schema => some "SCHEMA"
  | document => some "DOCUMENT"
  | outputDirectory => some "OUTPUT_DIR"
  | s => s.choices?.map fun choices => "\x7b" ++ String.intercalate "," choices ++ "\x7d"

def takesValue (s : Switch) : Bool := s.valueName?.isSome

def isRequired (s : Switch) : Bool := s = root

def purpose : Switch → String
  | help => "show this help message and exit"
  | version => "show program's version number and exit"
  | root => "Workspace root path"
  | config => "Explicit config file"
  | schema => "Schema SDL file (repeat for multiple files; overrides config)"
  | document => "Query document to trace (repeat for multiple files; skips discovery)"
  | outputDirectory => "Directory for trace.json (no files written if omitted)"
  | format => "Stdout format: text (default) or json"
  | failOnUnresolved => "Exit with status 1 when any field, argument, directive or type is unresolved"
  | summaryOnly => "Print only the summary block"
  | noOutput => "Silence stdout output"
  | noColour => "Disable colored output"
  | verbose => "Enable debug logging"

def title (s : Switch) : String := String.intercalate "/" s.names

end Switch

/-- A form of the command line: the program by itself, which needs a command, or its one command. -/
inductive Form where
  | program | trace
deriving DecidableEq, Inhabited

namespace Form

def title : Form → String
  | program => "gqlcontext"
  | trace => "gqlcontext trace"

def switches : Form → List Switch
  | program => [.help, .version]
  | trace =>
    [.help, .root, .config, .schema, .document, .outputDirectory, .format, .failOnUnresolved,
      .summaryOnly, .noOutput, .noColour, .verbose]

def commands : Form → List (String × String)
  | program => [("trace", "Trace type context through query documents")]
  | trace => []

def purpose? : Form → Option String
  | program => some "gqlcontext: trace GraphQL type context through query documents"
  | trace => none

end Form

def version : String := "0.1.0"

end TypeTrace.CommandLine
