import TypeTrace.Json.Reader
import TypeTrace.Main
import TypeTrace.Proofs.Balance
import TypeTrace.Proofs.Pruning
import TypeTrace.Proofs.Replacement
import TypeTrace.Proofs.Trace
import TypeTrace.Proofs.Report
import TypeTrace.Proofs.Workspace
import TypeTrace.Proofs.Schema.Types
import TypeTrace.Proofs.Schema.Build
import TypeTrace.Proofs.Extension
import TypeTrace.Proofs.Schema.Sorts
import TypeTrace.Proofs.Sorts
import TypeTrace.Proofs.Json.Lexical
import TypeTrace.Proofs.Json.Reading
import TypeTrace.Proofs.Files.Utf8
import TypeTrace.Proofs.Files.Tree
import TypeTrace.Proofs.Files.AtomicWrite
import TypeTrace.Proofs.Report.Reading
import TypeTrace.Proofs.CommandLine
import TypeTrace.Proofs.Transparency
import TypeTrace.Proofs.Files.Path
import TypeTrace.Proofs.Files.Places
import TypeTrace.Proofs.Files.Glob
import TypeTrace.Proofs.Notice
import TypeTrace.Proofs.Discovery
import TypeTrace.Proofs.Canonical
import TypeTrace.Proofs.Files.Failure
import TypeTrace.Proofs.Presentation
import TypeTrace.Proofs.Config.Refusal
import TypeTrace.Proofs.Config.Normal
import TypeTrace.Proofs.Contents
import TypeTrace.Proofs.Config.Patterns
import TypeTrace.Proofs.Discovery.Standard
import TypeTrace.Proofs.Context.Heights
import TypeTrace.Proofs.Config.Independence
import TypeTrace.Proofs.Files.Moments
import TypeTrace.Proofs.Schema.Parts
import TypeTrace.Proofs.Report.Colours
import TypeTrace.Proofs.Report.Listing
import TypeTrace.Proofs.Trace.Depths
import TypeTrace.Proofs.Discovery.Keys
