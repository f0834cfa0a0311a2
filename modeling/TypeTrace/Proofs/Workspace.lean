import TypeTrace.Proofs.Config.Normal
import TypeTrace.Proofs.Notice
import TypeTrace.Proofs.Report
import TypeTrace.Workspace

/-! # Reports of a workspace

Whatever settings are read, they trace only kinds that can be traced. A run under such settings
traces documents that were read from texts, so its report has the form of trace reports and its
totals are right.
-/

namespace TypeTrace

/-! ## Settings -/

namespace Config

/-- Settings that are loaded trace only kinds that can be traced. -/
theorem load_returns (files : FileTree) (root : Path) (given : Option Path) :
    (load files root given).Returns fun config => config.kinds ⊆ tracedKinds :=
  fun notices config after h => (load_returns_normal files root given notices config after h).kinds

end Config

/-! ## Runs -/

namespace Workspace

open Noting

variable {files : FileTree} {kinds : List String}

theorem wellFormed_of_readDocument {path : Path} {document : Node}
    (h : readDocument files path = .ok document) : document.WellFormed 5 := by
  unfold readDocument at h
  split at h
  · cases h
  · cases h
  · cases h
  · next text _ =>
      cases hparse : Node.parse text with
      | error fault =>
          rw [hparse] at h
          cases h
      | ok read =>
          rw [hparse] at h
          cases h
          exact Node.wellFormed_of_parse hparse

theorem traceFile_returns (hkinds : kinds ⊆ Config.tracedKinds) (schema : Schema)
    (root : Option Path) (path : Path) :
    (traceFile files schema kinds root path).Returns fun trace =>
      ∀ entry ∈ trace.entries, Report.Traced entry := by
  have hread : (lift id (readDocument files path)).Returns fun document =>
      document.WellFormed 5 :=
    Returns.lift fun document hdocument => wellFormed_of_readDocument hdocument
  refine hread.bind fun document hdocument => ?_
  have htraced : (lift .walk (Trace.ofDocument schema .standard kinds document) :
      Noting DocumentFault _).Returns fun entries => ∀ entry ∈ entries, Report.Traced entry :=
    Returns.lift fun entries hentries => Report.traced_ofDocument hdocument hkinds hentries
  refine htraced.bind fun entries hentries => Returns.after fun name => ?_
  dsimp only
  split
  · exact Returns.after fun _ => Returns.pure hentries
  · exact Returns.pure hentries

theorem trace_returns (request : Request) {config : Config}
    (hkinds : config.kinds ⊆ Config.tracedKinds) :
    (trace files request config).Returns fun result =>
      ∀ entry ∈ result.entries, Report.Traced entry := by
  refine Returns.after fun root => Returns.after fun schema => Returns.after fun documents => ?_
  have htraces : (traceFiles files schema config.kinds (some root) documents).Returns fun traces =>
      ∀ trace ∈ traces, ∀ entry ∈ trace.entries, Report.Traced entry :=
    Returns.after fun _ => Returns.mapM (traceFile_returns hkinds schema _) documents
  refine htraces.mapError.bind fun traces htraces => Returns.after fun _ => Returns.after fun _ =>
    Returns.pure ?_
  intro entry hentry
  obtain ⟨document, hdocument, hentry⟩ := List.mem_flatMap.mp hentry
  exact htraces document hdocument entry hentry

/-- A run under settings that were loaded makes a report of the form of trace reports, and the
totals of the report are the numbers of what it lists. -/
theorem report_conforms {files : FileTree} {root : Path} {given : Option Path} {config : Config}
    {request : Request} {result : TraceResult} {before loaded start after : List Notice}
    (hload : Config.load files root given before = .ok config loaded)
    (htrace : trace files request config start = .ok result after) :
    Report.form.fits (Report.payload result) ∧ Report.Tallies (Report.payload result) := by
  have hkinds := Config.load_returns files root given before config loaded hload
  have htraced := trace_returns request hkinds start result after htrace
  exact ⟨Report.fits_payload htraced, Report.tallies_payload result⟩

def shop : FileTree where
  entries :=
    [(["shop"], .directory),
     (["shop", "gqlcontext.yaml"], .file "kinds: [field, directive]\n".toUTF8.toList),
     (["shop", "types.graphql"], .file "type Query { a: Query }".toUTF8.toList),
     (["shop", "ask.graphql"], .file "{ a { b @c } }".toUTF8.toList)]
  current := ["shop"]

def shopRequest : Request :=
  ⟨Path.ofText ".", [Path.ofText "types.graphql"], [Path.ofText "ask.graphql"]⟩

/-- Settings from a file, and a document with two references that lead nowhere. -/
theorem report_conforms_in_shop :
    ∃ config loaded result after,
      Config.load shop (Path.ofText ".") none [] = .ok config loaded ∧
        trace shop shopRequest config [] = .ok result after ∧ result.unresolvedCount = 2 ∧
        Report.form.fits (Report.payload result) ∧ Report.Tallies (Report.payload result) := by
  have hruns : (match Config.load shop (Path.ofText ".") none [] with
      | .ok config _ =>
          match trace shop shopRequest config [] with
          | .ok result _ => result.unresolvedCount == 2
          | .error .. => false
      | .error .. => false) = true := by decide +kernel
  split at hruns
  · next config loaded hload =>
    split at hruns
    · next result after htrace =>
      exact ⟨config, loaded, result, after, hload, htrace, beq_iff_eq.mp hruns,
        report_conforms hload htrace⟩
    · cases hruns
  · cases hruns

end Workspace

end TypeTrace
