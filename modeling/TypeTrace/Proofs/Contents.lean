import TypeTrace.Proofs.Canonical
import TypeTrace.Proofs.CommandLine
import TypeTrace.Proofs.Files.Utf8
import TypeTrace.Proofs.Trace

/-! # Failures because of contents

What the files of a schema and of documents hold may be no schema and no document. A run says so and
ends with exit code 1, except for the first file that cannot be taken: if its bytes are no text, or
its path has a null character, the run ends with a fault that it has no answer to. All this goes for
contents of a nesting that the stack of a program can hold.
-/

namespace TypeTrace

/-! ## Files -/

/-- A path has no null character, and if it leads to a file, then to the bytes of a text. -/
structure FileTree.HoldsText (files : FileTree) (p : Path) : Prop where
  nullFree : p.holdsNull = false
  text : ∀ bytes, files.fileBytes? p = some bytes → ∃ text, bytes = Utf8.bytesOf text

theorem FileTree.not_holdsText_iff {files : FileTree} {p : Path} :
    ¬ files.HoldsText p ↔
      ∃ fault, files.readText p = .error fault ∧ ∀ error, fault ≠ .os error := by
  by_cases hnull : p.holdsNull = true
  · have hread : files.readText p = .error (.path .nullByte) := by rw [readText, if_pos hnull]
    refine iff_of_true (fun h => ?_) ⟨_, hread, by simp⟩
    rw [h.nullFree] at hnull
    cases hnull
  · have hholds : files.HoldsText p ↔
        ∀ bytes, files.fileBytes? p = some bytes → ∃ text, bytes = Utf8.bytesOf text :=
      ⟨fun h => h.text, fun h => ⟨Bool.eq_false_of_not_eq_true hnull, h⟩⟩
    rw [hholds, readText, if_neg hnull]
    cases hbytes : files.readBytes p with
    | error cause =>
        have hnone : files.fileBytes? p = none := by
          rw [Option.eq_none_iff_forall_ne_some]
          intro bytes hsome
          cases hbytes.symm.trans (readBytes_eq_ok.mpr hsome)
        simp [hnone]
    | ok bytes =>
        rw [readBytes_eq_ok.mp hbytes]
        have hread := Utf8.readText_isOk_iff bytes
        cases htext : Utf8.readText bytes with
        | error fault => simpa [htext, Except.mapError] using hread
        | ok text => simpa [htext, Except.mapError] using hread

namespace CommandLine

/-! ## Faults -/

/-- A fault is reported as one of the trace, unless there is something to blame for which there is no
report. -/
structure Surfaces (blame : Prop) (fault : Workspace.Fault) : Prop where
  reported : ¬ blame → report? fault = some (1, "Trace error: ")
  unreported : blame → report? fault = none

theorem Surfaces.congr {blame blame' : Prop} {fault : Workspace.Fault} (h : Surfaces blame fault)
    (hblame : blame ↔ blame') : Surfaces blame' fault where
  reported hnone := h.reported (hnone ∘ hblame.mp)
  unreported hsome := h.unreported (hblame.mpr hsome)

theorem surfaces_of_iff {blame : Prop} {fault : Workspace.Fault}
    (hfault : ∀ cause, fault ≠ .config cause) (h : blame ↔ report? fault = none) :
    Surfaces blame fault := by
  constructor
  · intro hblame
    cases hreport : report? fault with
    | none => exact absurd (h.mpr hreport) hblame
    | some report =>
        obtain ⟨hcode, hwords⟩ := report?_eq_of_trace hfault hreport
        rw [← hcode, ← hwords]
  · exact h.mp

/-! ## Schemas and documents -/

section

variable {files : FileTree} {start notices : List Notice}

/-- The reading of a schema stops at a file whose bytes are no text, or at a path that has none. -/
def SchemaStops (files : FileTree) (paths : List Path) : Prop :=
  Reaches (fun path => ∃ text, files.readText path = .ok text) (fun path => ¬ files.HoldsText path)
    paths

/-- The reading of documents stops at a file whose bytes are no text, or at a path that has none. -/
def DocumentsStop (files : FileTree) (paths : List Path) : Prop :=
  Reaches (fun path => ∃ document, Workspace.readDocument files path = .ok document)
    (fun path => ¬ files.HoldsText path) paths

theorem exists_unreported_part (path : Path) : ¬ files.HoldsText path ↔
    ∃ fault, Schema.readPart files path = .error fault ∧ report? (.schema fault) = none := by
  rw [FileTree.not_holdsText_iff]
  unfold Schema.readPart
  rcases files.readText path with (error | fault | cause) | text <;> simp [Except.mapError, report?]

theorem exists_part (path : Path) : (∃ text, files.readText path = .ok text) ↔
    ∃ text, Schema.readPart files path = .ok text := by
  unfold Schema.readPart
  cases files.readText path <;> simp [Except.mapError]

theorem exists_unreported_document (path : Path) : ¬ files.HoldsText path ↔
    ∃ fault, Workspace.readDocument files path = .error fault ∧
      report? (.document fault) = none := by
  rw [FileTree.not_holdsText_iff]
  unfold Workspace.readDocument
  rcases files.readText path with (error | fault | cause) | text
  · simp [report?]
  · simp [report?]
  · simp [report?]
  · cases hparse : Node.parse text <;> simp [hparse, Except.mapError, report?]

theorem schemaStops_iff {paths : List Path} : SchemaStops files paths ↔
    ∃ fault, Schema.loaded files paths = .error fault ∧ report? (.schema fault) = none := by
  have hstops : (∃ fault, paths.mapM (Schema.readPart files) = .error fault ∧
      report? (.schema fault) = none) ↔ SchemaStops files paths :=
    exists_mapM_error_iff exists_part exists_unreported_part paths
  rw [← hstops]
  unfold Schema.loaded
  cases paths with
  | nil => simp [pure, Except.pure, report?]
  | cons path paths =>
      rw [if_neg (by simp)]
      cases List.mapM (Schema.readPart files) (path :: paths) with
      | error fault => simp [bind, Except.bind]
      | ok parts =>
          cases hschema : Schema.ofText (Schema.joinParts parts) with
          | error fault => simp [hschema, bind, Except.bind, Except.mapError, report?]
          | ok schema => simp [hschema, bind, Except.bind, Except.mapError]

theorem surfaces_load {paths : List Path} {fault : Schema.LoadFault}
    (h : Schema.load files paths start = .error fault notices) :
    Surfaces (SchemaStops files paths) (.schema fault) := by
  have hloaded := (Schema.answers_load files paths).eq_error h
  refine surfaces_of_iff (by simp) ?_
  rw [schemaStops_iff, hloaded]
  simp

theorem surfaces_readDocument {path : Path} {fault : DocumentFault}
    (h : Workspace.readDocument files path = .error fault) :
    Surfaces (¬ files.HoldsText path) (.document fault) := by
  refine surfaces_of_iff (by simp) ?_
  rw [exists_unreported_document, h]
  simp

theorem exists_displayPath (hsound : files.Sound) (root : Option Path) {path : Path}
    {document : Node} (h : Workspace.readDocument files path = .ok document) :
    ∃ name, Workspace.displayPath files root path = .ok name := by
  cases root with
  | none => exact ⟨path.text, rfl⟩
  | some root =>
      cases htext : files.readText path with
      | error fault =>
          rw [Workspace.readDocument, htext] at h
          cases fault <;> cases h
      | ok text =>
          have hsettle := hsound.settle_of_readText htext
          exact ⟨_, Workspace.displayPath_eq_ok.mpr ⟨_, hsettle, rfl⟩⟩

/-- A document that is read is traced: the walk through it does not fail, and it has a name. -/
theorem traced_eq_error_iff (hsound : files.Sound) (schema : Schema) (kinds : List String)
    (root : Option Path) {path : Path} {fault : DocumentFault} :
    Workspace.traced files schema kinds root path = .error fault ↔
      Workspace.readDocument files path = .error fault := by
  cases hdocument : Workspace.readDocument files path with
  | error cause =>
      rw [Workspace.traced, hdocument]
      simp [bind, Except.bind]
  | ok document =>
      obtain ⟨name, hname⟩ := exists_displayPath hsound root hdocument
      obtain ⟨trace, htrace⟩ := Workspace.exists_traced schema kinds hdocument hname
      rw [htrace]
      exact iff_of_false nofun nofun

theorem documentsStop_iff (hsound : files.Sound) (schema : Schema) (kinds : List String)
    (root : Option Path) (paths : List Path) : DocumentsStop files paths ↔
      ∃ fault, paths.mapM (Workspace.traced files schema kinds root) = .error fault ∧
        report? (.document fault) = none := by
  refine (exists_mapM_error_iff (fun path => ?_) (fun path => ?_) paths).symm
  · have herror (fault : DocumentFault) :
        Workspace.traced files schema kinds root path = .error fault ↔
          Workspace.readDocument files path = .error fault :=
      traced_eq_error_iff hsound schema kinds root
    cases htraced : Workspace.traced files schema kinds root path with
    | error fault => simp [(herror fault).mp htraced]
    | ok trace =>
        cases hdocument : Workspace.readDocument files path with
        | error fault => cases htraced.symm.trans ((herror fault).mpr hdocument)
        | ok document => simp
  · rw [exists_unreported_document]
    simp only [traced_eq_error_iff hsound]

theorem surfaces_traceFiles (hsound : files.Sound) {schema : Schema} {kinds : List String}
    {root : Option Path} {paths : List Path} {fault : DocumentFault}
    (hroot : ∀ p ∈ root, ∃ top, files.settle p = .ok top)
    (h : Workspace.traceFiles files schema kinds root paths start = .error fault notices) :
    Surfaces (DocumentsStop files paths) (.document fault) := by
  obtain ⟨top, htop⟩ : ∃ top, root.mapM files.settle = .ok top := by
    cases root with
    | none => exact ⟨none, rfl⟩
    | some p =>
        obtain ⟨top, htop⟩ := hroot p rfl
        exact ⟨some top, by rw [Option.mapM_some, htop]; rfl⟩
  have htraced := (Workspace.answers_traceFiles files schema kinds root paths).eq_error h
  rw [Workspace.tracedAll, htop] at htraced
  refine surfaces_of_iff (by simp) ?_
  rw [documentsStop_iff hsound schema kinds top]
  change paths.mapM _ = _ at htraced
  rw [htraced]
  simp

end

/-! ## Runs -/

section

variable {files : FileTree} {request : Workspace.Request} {config : Config} {root : Path}
  {start notices : List Notice} {fault : Workspace.Fault}

/-- The reading of a workspace stops at a file whose bytes are no text, or at a path that has none. It is
one of the schema, or, where there is a schema, one of a document. -/
inductive WorkspaceStops (files : FileTree) (request : Workspace.Request) (config : Config)
    (root : Path) (start : List Notice) : Prop where
  | schema (h : SchemaStops files (request.schemaFiles config root))
  | documents {schema : Schema} {documents : List Path} {loaded found : List Notice}
      (hload : Schema.load files (request.schemaFiles config root) start = .ok schema loaded)
      (hfind : Workspace.findDocuments files request config root
        (request.schemaFiles config root) loaded = .ok documents found)
      (h : DocumentsStop files documents)

theorem not_schemaStops_of_load {paths : List Path} {schema : Schema}
    (h : Schema.load files paths start = .ok schema notices) : ¬ SchemaStops files paths := by
  intro hstops
  obtain ⟨fault, hfault, -⟩ := schemaStops_iff.mp hstops
  cases hfault.symm.trans ((Schema.answers_load files paths).eq_ok h)

theorem surfaces_trace (hsound : files.Sound) (hroot : files.settle request.root = .ok root)
    (htop : ∃ top, files.settle root = .ok top) (hpattern : ∀ cause, fault ≠ .pattern cause)
    (h : Workspace.trace files request config start = .error fault notices) :
    Surfaces (WorkspaceStops files request config root start) fault := by
  unfold Workspace.trace at h
  rw [Stateful.bind_ok (Noting.lift_eq_ok.mpr ⟨hroot, rfl⟩)] at h
  -- A run goes on only where nothing is to blame, so it is the stage that fails that decides.
  rcases Stateful.of_bind_eq_error h with hload | ⟨schema, loaded, hload, h⟩
  · obtain ⟨cause, hcause, rfl⟩ := Noting.mapError_eq_error.mp hload
    refine (surfaces_load hcause).congr ⟨.schema, fun hstops => ?_⟩
    cases hstops with
    | schema h => exact h
    | documents hloaded => cases hcause.symm.trans hloaded
  have hload := Noting.mapError_eq_ok.mp hload
  rcases Stateful.of_bind_eq_error h with hfind | ⟨documents, found, hfind, h⟩
  · obtain ⟨cause, -, rfl⟩ := Noting.mapError_eq_error.mp hfind
    exact absurd rfl (hpattern cause)
  have hfind := Noting.mapError_eq_ok.mp hfind
  rcases Stateful.of_bind_eq_error h with htraces | ⟨traces, traced, -, h⟩
  · obtain ⟨cause, hcause, rfl⟩ := Noting.mapError_eq_error.mp htraces
    have hsurfaces := surfaces_traceFiles hsound (by simpa using htop) hcause
    refine hsurfaces.congr ⟨.documents hload hfind, fun hstops => ?_⟩
    cases hstops with
    | schema h => exact absurd h (not_schemaStops_of_load hload)
    | documents hload' hfind' h =>
        cases hload.symm.trans hload'
        cases hfind.symm.trans hfind'
        exact h
  -- The files of the schema have been read, so that they have names.
  rcases Stateful.of_bind_eq_error h with hnote | ⟨_, noted, -, h⟩
  · cases hnote
  rcases Stateful.of_bind_eq_error h with hnames | ⟨names, named, -, h⟩
  · obtain ⟨cause, hcause, -⟩ := Noting.lift_eq_error hnames
    obtain ⟨path, hpath, hsettle⟩ := exists_of_mapM_eq_error hcause
    obtain ⟨text, htext⟩ :=
      Schema.exists_text_of_loaded ((Schema.answers_load _ _).eq_ok hload) path hpath
    cases hsettle.symm.trans (hsound.settle_of_readText htext)
  · cases h

theorem TraceCommand.runFrom_of_trace_error (naming : AtomicWrite.Naming) {c : TraceCommand}
    (terminal : Bool) (hroot : files.isDirectory root = true)
    (h : c.trace files root [] = .error fault notices) :
    (∀ code words, report? fault = some (code, words) →
      (c.runFrom naming files terminal root).ending = .ok code ∧
        (c.runFrom naming files terminal root).OnlySays files (words ++ fault.message)) ∧
    (report? fault = none →
      (c.runFrom naming files terminal root).ending = .error (.workspace fault)) := by
  rw [runFrom, if_pos hroot, h]
  dsimp only
  constructor
  · intro code words hreport
    rw [hreport]
    exact ⟨rfl, rfl, rfl, rfl, rfl⟩
  · intro hreport
    rw [hreport]
    rfl

/-- Whatever the files hold, a schema or a document that cannot be had is reported, and a run says so
and ends with exit code 1, unless the first file that cannot be taken is one whose bytes are no text, or
its path has a null character. A document that is read is walked through to its end. Runs are left out
if the sign for a character that cannot be shown is in a path of their settings. -/
structure FailuresSurface (files : FileTree) : Prop where
  schema : ∀ paths start fault notices, Schema.load files paths start = .error fault notices →
    Surfaces (SchemaStops files paths) (.schema fault)
  document : ∀ path fault, Workspace.readDocument files path = .error fault →
    Surfaces (¬ files.HoldsText path) (.document fault)
  walk : ∀ schema kinds document, ∃ after,
    (Trace.collector kinds).run schema .standard 0 document ⟨[], 0⟩ =
      .ok (.finished (some document)) after
  documents : ∀ schema kinds root paths start fault notices,
    (∀ p ∈ root, ∃ top, files.settle p = .ok top) →
    Workspace.traceFiles files schema kinds root paths start = .error fault notices →
      Surfaces (DocumentsStop files paths) (.document fault)
  workspace : ∀ request config root start fault notices, files.settle request.root = .ok root →
    (∃ top, files.settle root = .ok top) → (∀ cause, fault ≠ .pattern cause) →
    Workspace.trace files request config start = .error fault notices →
      Surfaces (WorkspaceStops files request config root start) fault
  run : ∀ naming (c : TraceCommand) terminal root top config noted fault notices,
    files.settle c.root = .ok root → files.isDirectory root = true →
    files.settle root = .ok top →
    c.settings files root [] = .ok config noted →
    (∀ text ∈ config.schemaPaths, '\ufffd' ∉ text.toList) →
    (∀ cause, fault ≠ .pattern cause) →
    Workspace.trace files ⟨root, c.schemas, c.documents⟩ config noted = .error fault notices →
    (¬ WorkspaceStops files ⟨root, c.schemas, c.documents⟩ config top noted →
      (c.run naming files terminal).ending = .ok 1 ∧
        (c.run naming files terminal).OnlySays files ("Trace error: " ++ fault.message)) ∧
    (WorkspaceStops files ⟨root, c.schemas, c.documents⟩ config top noted →
      (c.run naming files terminal).ending = .error (.workspace fault))

theorem failures_surface (hsound : files.Sound) : FailuresSurface files where
  schema _ _ _ _ h := surfaces_load h
  document _ _ h := surfaces_readDocument h
  walk schema kinds document :=
    ⟨_, Observer.run_of_quiet ((Trace.passive_collector kinds).quiet _ _)⟩
  documents _ _ _ _ _ _ _ hroot h := surfaces_traceFiles hsound hroot h
  workspace _ _ _ _ _ _ hroot htop hpattern h := surfaces_trace hsound hroot htop hpattern h
  run naming c terminal root top config noted fault notices hroot hdirectory htop hsettings _
      hpattern h := by
    have hagain : ∃ again, files.settle top = .ok again := by
      have hdirectory := hsound.isDirectory_resolve hdirectory
      rw [FileTree.resolve_of_settle htop] at hdirectory
      exact ⟨_, hsound.settle_of_isDirectory hdirectory⟩
    have hsurfaces := surfaces_trace hsound htop hagain hpattern h
    have hrun := TraceCommand.runFrom_of_trace_error naming terminal hdirectory
      (TraceCommand.trace_of_workspace_error hsettings h)
    rw [TraceCommand.run_of_settle hroot]
    exact ⟨fun hstops => hrun.1 _ _ (hsurfaces.reported hstops),
      fun hstops => hrun.2 (hsurfaces.unreported hstops)⟩

end

/-- A workspace with a file that has a single byte, which begins no character, and with a text that is no
schema. -/
def attic : FileTree where
  entries :=
    [(["attic"], .directory), (["attic", "moth.graphql"], .file [0xff]),
     (["attic", "torn.graphql"], .file "type Query \x7b".toUTF8.toList)]
  current := ["attic"]

def atticCommand : TraceCommand :=
  { TraceCommand.unspecified with schemas := [Path.ofText "torn.graphql"] }

/-- A schema that cannot be built is reported, and the run ends with 1. -/
theorem failures_surface_in_attic : attic.Sound ∧ ∃ message,
    (atticCommand.run .counting attic false).ending = .ok 1 ∧
      (atticCommand.run .counting attic false).OnlySays attic ("Trace error: " ++ message) := by
  have hsound : attic.Sound := ⟨by decide, by decide, by decide, by decide⟩
  let root : Path := ⟨.root, ["attic"]⟩
  have hroot : attic.settle atticCommand.root = .ok root := by decide +kernel
  have htop : attic.settle root = .ok root := by decide +kernel
  have hdirectory : attic.isDirectory root = true := by decide +kernel
  have hsettings : atticCommand.settings attic root [] =
      .ok Config.standard [.noConfig "/attic/gqlcontext.yaml"] := by rfl
  have hpaths : ∀ text ∈ Config.standard.schemaPaths, '\ufffd' ∉ text.toList := by decide +kernel
  have hfails : (match Workspace.trace attic ⟨root, atticCommand.schemas, []⟩ Config.standard
      [.noConfig "/attic/gqlcontext.yaml"] with
    | .error (.schema _) _ => true
    | _ => false) = true := by decide +kernel
  split at hfails
  · next fault notices htrace =>
    refine ⟨hsound, _, ((failures_surface hsound).run .counting atticCommand false root root _ _ _ _
      hroot hdirectory htop hsettings hpaths (by simp) htrace).1 ?_⟩
    have hread : (attic.readText ⟨.root, ["attic", "torn.graphql"]⟩).isOk = true := by decide +kernel
    have hload : (match Schema.load attic [⟨.root, ["attic", "torn.graphql"]⟩]
        [.noConfig "/attic/gqlcontext.yaml"] with
      | .ok .. => false
      | .error .. => true) = true := by decide +kernel
    rintro (⟨⟨hholds⟩ | ⟨-, ⟨⟩⟩⟩ | ⟨hloaded, -, -⟩)
    · obtain ⟨fault, hfault, -⟩ := FileTree.not_holdsText_iff.mp hholds
      obtain ⟨text, htext⟩ := exists_of_isOk hread
      cases hfault.symm.trans htext
    · rw [show Workspace.Request.schemaFiles _ _ _ = [⟨.root, ["attic", "torn.graphql"]⟩] from rfl]
        at hloaded
      rw [hloaded] at hload
      cases hload
  · cases hfails

def mothArguments : List String := ["trace", "-r", ".", "-s", "moth.graphql", "-d", "moth.graphql"]

/-- The file is neither a schema nor a document, and nothing reports it as either. -/
theorem unreported_file_in_attic : ∃ fault : Utf8.Fault,
    Schema.load attic [Path.ofText "moth.graphql"] [] = .error (.undecodable fault) [] ∧
    report? (.schema (.undecodable fault)) = none ∧
    Workspace.readDocument attic (Path.ofText "moth.graphql") = .error (.undecodable fault) ∧
    report? (.document (.undecodable fault)) = none ∧
    (run .counting attic false mothArguments).ending =
      .error (.workspace (.schema (.undecodable fault))) ∧
    (run .counting attic false mothArguments).errors = [] := by
  refine ⟨⟨0, 1, 0xff, .invalidStart⟩, ?_, rfl, ?_, rfl, ?_, ?_⟩
  · rfl
  · rfl
  · rfl
  · decide +kernel

end CommandLine

end TypeTrace
