import TypeTrace.Proofs.Discovery
import TypeTrace.Proofs.Trace
import TypeTrace.Workspace

/-! # Reports of documents that are found

The documents of a workspace are reported under texts that are in strict order, and none of them
under the text of a file of the schema. The report is the same for the same patterns and the same
files, in whatever order either is listed.
-/

namespace TypeTrace

/-! ## Schemas -/

namespace Schema

variable {files files' : FileTree}

/-- The schema that files hold, without the notice of it. -/
def loaded (files : FileTree) (paths : List Path) : Except LoadFault Schema :=
  if paths.isEmpty then .error .noFiles
  else do
    let parts ← paths.mapM (readPart files)
    let schema ← (ofText (joinParts parts)).mapError (.invalid paths (joinParts parts))
    .ok schema

theorem answers_load (files : FileTree) (paths : List Path) :
    (load files paths).Answers (loaded files paths) := by
  unfold load loaded
  split
  · exact Noting.Answers.throw _
  · refine (Noting.Answers.lift_id _).bind fun parts => ?_
    refine (Noting.Answers.lift _ _).bind fun schema => ?_
    exact Noting.Answers.after_note _ (Noting.Answers.pure schema)

/-- All files of a schema that was loaded have been read. -/
theorem exists_text_of_loaded {paths : List Path} {schema : Schema}
    (h : loaded files paths = .ok schema) : ∀ path ∈ paths, ∃ text, files.readText path = .ok text := by
  intro path hpath
  unfold loaded at h
  split at h
  · cases h
  · obtain ⟨parts, hparts, -⟩ := exists_of_bind_eq_ok h
    obtain ⟨part, -, hread⟩ := exists_of_mem_left (forall₂_of_mapM hparts) hpath
    exact ⟨part, eq_ok_of_mapError hread⟩

theorem loaded_congr (h : files.Agrees files') (paths : List Path) :
    loaded files paths = loaded files' paths := by
  have hread : readPart files = readPart files' := funext fun path => by
    rw [readPart, readPart, h.readText]
  rw [loaded, loaded, hread]

end Schema

namespace Workspace

open Noting

variable {files files' : FileTree} {schema : Schema} {kinds : List String} {root : Path}
  {paths : List Path} {request : Request} {config : Config} {start after : List Notice}

/-! ## Documents -/

/-- The trace of the document in a file, without the notice of it. -/
def traced (files : FileTree) (schema : Schema) (kinds : List String) (root : Option Path)
    (path : Path) : Except DocumentFault DocumentTrace := do
  let document ← readDocument files path
  let entries ← (Trace.ofDocument schema .standard kinds document).mapError .walk
  let name ← (displayPath files root path).mapError .path
  return ⟨name, entries⟩

/-- A document that is read and has a name is traced: every walk comes to its end. -/
theorem exists_traced (schema : Schema) (kinds : List String) {root : Option Path} {path : Path}
    {document : Node} {name : String} (hdocument : readDocument files path = .ok document)
    (hname : displayPath files root path = .ok name) :
    ∃ trace, traced files schema kinds root path = .ok trace := by
  obtain ⟨entries, hentries⟩ := Trace.exists_ofDocument schema .standard kinds document
  refine ⟨⟨name, entries⟩, ?_⟩
  unfold traced
  rw [hdocument]
  change ((Trace.ofDocument schema .standard kinds document).mapError _ >>= fun entries => _) = _
  rw [hentries, hname]
  rfl

/-- The traces of the documents in files, without the notices of them. -/
def tracedAll (files : FileTree) (schema : Schema) (kinds : List String) (root : Option Path)
    (paths : List Path) : Except DocumentFault (List DocumentTrace) := do
  let root ← (root.mapM files.settle).mapError .path
  paths.mapM (traced files schema kinds root)

theorem answers_traceFile (files : FileTree) (schema : Schema) (kinds : List String)
    (root : Option Path) (path : Path) :
    (traceFile files schema kinds root path).Answers (traced files schema kinds root path) := by
  refine (Answers.lift_id _).bind fun document => ?_
  refine (Answers.lift _ _).bind fun entries => (Answers.lift _ _).bind fun name => ?_
  dsimp only
  split
  · exact Answers.after_note _ (Answers.pure _)
  · exact Answers.pure _

theorem answers_traceFiles (files : FileTree) (schema : Schema) (kinds : List String)
    (root : Option Path) (paths : List Path) :
    (traceFiles files schema kinds root paths).Answers (tracedAll files schema kinds root paths) :=
  (Answers.lift _ _).bind fun _ => Answers.mapM (answers_traceFile files schema kinds _) paths

theorem tracedAll_congr (h : files.Agrees files') (root : Option Path) :
    tracedAll files schema kinds root = tracedAll files' schema kinds root := by
  have hsettle : files.settle = files'.settle := funext h.settle
  have hread : files.readText = files'.readText := funext h.readText
  unfold tracedAll traced readDocument displayPath
  rw [hsettle, hread]

theorem displayPath_eq_ok {path : Path} {name : String} :
    displayPath files (some root) path = .ok name ↔
      ∃ resolved, files.settle path = .ok resolved ∧ resolved.stableKey root = name := by
  unfold displayPath
  cases files.settle path <;> simp [bind, Except.bind, pure, Except.pure]

/-- Documents are reported in their order, each under the text by which it is known. -/
theorem map_path_of_traceFiles {traces : List DocumentTrace}
    (h : traceFiles files schema kinds (some root) paths start = .ok traces after) :
    traces.map (fun trace => trace.path) =
      paths.map fun path => (files.resolve path).stableKey (files.resolve root) := by
  obtain ⟨top, htop, htraced⟩ :=
    exists_of_bind_eq_ok ((answers_traceFiles files schema kinds _ _).eq_ok h)
  obtain rfl : top = some (files.resolve root) := by
    cases hroot : files.settle root with
    | error fault => simp [hroot, Functor.map, Except.map, Except.mapError] at htop
    | ok resolved =>
        rw [FileTree.resolve_of_settle hroot]
        simpa [hroot, Functor.map, Except.map, Except.mapError] using htop.symm
  have hall := forall₂_of_mapM htraced
  clear h htraced
  induction hall with
  | nil => rfl
  | cons hone _ ih =>
      obtain ⟨document, -, hone⟩ := exists_of_bind_eq_ok hone
      obtain ⟨entries, -, hone⟩ := exists_of_bind_eq_ok hone
      obtain ⟨name, hname, hone⟩ := exists_of_bind_eq_ok hone
      cases hone
      obtain ⟨resolved, hsettle, rfl⟩ := displayPath_eq_ok.mp (eq_ok_of_mapError hname)
      rw [List.map_cons, List.map_cons, ih, FileTree.resolve_of_settle hsettle]

/-! ## Results -/

/-- A run gives back a result if each of its steps gives back something. -/
theorem trace_eq_ok {result : TraceResult} :
    trace files request config start = .ok result after ↔
      ∃ root schema documents traces resolved s t u,
        files.settle request.root = .ok root ∧
        Schema.load files (request.schemaFiles config root) start = .ok schema s ∧
        findDocuments files request config root (request.schemaFiles config root) s =
          .ok documents t ∧
        traceFiles files schema config.kinds (some root) documents t = .ok traces u ∧
        (request.schemaFiles config root).mapM files.settle = .ok resolved ∧
        result = ⟨resolved.map fun path => path.stableKey root, traces⟩ ∧
        after = u ++ [.traced traces.length] := by
  constructor
  · intro h
    obtain ⟨root, s', hsettle, h⟩ := Stateful.exists_of_bind_eq_ok h
    obtain ⟨hroot, rfl⟩ := lift_eq_ok.mp hsettle
    obtain ⟨schema, s, hload, h⟩ := Stateful.exists_of_bind_eq_ok h
    obtain ⟨documents, t, hfind, h⟩ := Stateful.exists_of_bind_eq_ok h
    obtain ⟨traces, u, htraces, h⟩ := Stateful.exists_of_bind_eq_ok h
    obtain ⟨_, _, hnote, h⟩ := Stateful.exists_of_bind_eq_ok h
    cases hnote
    obtain ⟨resolved, u', hnames, h⟩ := Stateful.exists_of_bind_eq_ok h
    obtain ⟨hresolved, rfl⟩ := lift_eq_ok.mp hnames
    cases h
    exact ⟨root, schema, documents, traces, resolved, s, t, u, hroot, mapError_eq_ok.mp hload,
      mapError_eq_ok.mp hfind, mapError_eq_ok.mp htraces, hresolved, rfl, rfl⟩
  · rintro ⟨root, schema, documents, traces, resolved, s, t, u, hroot, hload, hfind, htraces,
      hresolved, rfl, rfl⟩
    unfold trace
    rw [Stateful.bind_ok (lift_eq_ok.mpr ⟨hroot, rfl⟩),
      Stateful.bind_ok (mapError_eq_ok.mpr hload), Stateful.bind_ok (mapError_eq_ok.mpr hfind),
      Stateful.bind_ok (mapError_eq_ok.mpr htraces), hresolved]
    rfl

/-- A document is not known by the text of a file of the schema, although the one text is seen from
the resolved root and the other one from where that root resolves to. -/
theorem stableKey_ne_of_ne (hsound : files.Sound) {document schema : Location}
    {bytes bytes' : List UInt8} (hroot : root.anchor = .root)
    (hdocument : files.get? document = some (.file bytes))
    (hschema : files.get? schema = some (.file bytes')) (hne : document ≠ schema) :
    (⟨.root, document⟩ : Path).stableKey (files.resolve root) ≠
      (⟨.root, schema⟩ : Path).stableKey root := by
  intro hsame
  have hdocument := hsound.rooted hdocument
  have hschema' := hsound.rooted hschema
  have heq : (⟨.root, schema⟩ : Path) = ⟨.root, document⟩ := by
    cases hrelative : (⟨.root, schema⟩ : Path).relativeTo? root with
    | none =>
        rw [Path.stableKey_of_none hrelative] at hsame
        exact hschema'.eq_of_text hdocument hsame.symm
    | some below =>
        -- The root lies above a file, so it resolves to itself.
        obtain ⟨-, -, habove⟩ := Path.parts_of_relativeTo? hrelative
        dsimp only at habove
        rw [habove] at hschema
        have hself := hsound.resolve_self hschema (by simp)
        have hself : files.resolve root = root := by
          rw [← hroot] at hself
          exact hself
        rw [hself] at hsame
        exact hschema'.eq_of_stableKey hdocument hsame.symm
  exact hne (congrArg Path.parts heq).symm

/-- A run over the same documents' patterns and the same entries, in whatever order, gives back what
this one does. -/
theorem entails_trace {patterns : List String} (hsound : files.Sound)
    (hfound : request.documents = []) (hfiles : files.Shuffled files')
    (hpatterns : ∀ pattern, pattern ∈ config.patterns ↔ pattern ∈ patterns) :
    Entails (trace files request config)
      (trace files' request { config with patterns := patterns }) := by
  have hagrees := hfiles.agrees hsound
  have hsettle : files.settle = files'.settle := funext hagrees.settle
  have hload (schemas : List Path) :
      Entails (Schema.load files schemas) (Schema.load files' schemas) :=
    (Schema.answers_load files schemas).entails (Schema.answers_load files' schemas) fun schema h =>
      Schema.loaded_congr hagrees schemas ▸ h
  have hfind (root : Path) (schemas : List Path) :
      Entails (findDocuments files request config root schemas)
        (findDocuments files' request { config with patterns := patterns } root schemas) := by
    rw [findDocuments, findDocuments, hfound]
    exact Discovery.Similar.entails ⟨hfiles, hsound, hpatterns, rfl, rfl, rfl⟩
      ⟨hfiles.symm, hfiles.sound hsound, fun pattern => (hpatterns pattern).symm, rfl, rfl, rfl⟩
  have htraces (schema : Schema) (root : Path) (documents : List Path) :
      Entails (traceFiles files schema config.kinds (some root) documents)
        (traceFiles files' schema config.kinds (some root) documents) :=
    (answers_traceFiles files schema config.kinds _ documents).entails
      (answers_traceFiles files' schema config.kinds _ documents) fun traces h =>
        tracedAll_congr hagrees (some root) ▸ h
  unfold trace
  rw [hsettle]
  refine (Answers.lift _ _).entails_self.bind fun root => ?_
  refine (hload _).mapError.bind fun schema => ?_
  refine (hfind _ _).mapError.bind fun documents => ?_
  refine (htraces schema _ documents).mapError.bind fun traces => ?_
  exact (Answers.after_note _ ((Answers.lift _ _).bind fun _ => Answers.pure _)).entails_self

/-- The documents of a result are reported in strict order, and none under the text of a file of the
schema. -/
structure Ordered (result : TraceResult) : Prop where
  strict : (result.documents.map fun document => document.path).Pairwise (· < ·)
  apart : ∀ document ∈ result.documents, document.path ∉ result.schemaPaths

theorem ordered_of_trace {result : TraceResult} (hsound : files.Sound)
    (hfound : request.documents = []) (h : trace files request config start = .ok result after) :
    Ordered result := by
  obtain ⟨root, schema, documents, traces, resolved, s, t, u, hroot, hload, hfind, htraces,
    hresolved, rfl, -⟩ := trace_eq_ok.mp h
  rw [findDocuments, hfound] at hfind
  obtain ⟨hleads, hstrict⟩ := Discovery.run_eq_ok hsound hfind
  have hplace : ∀ d ∈ documents, ∃ place bytes, d = ⟨.root, place⟩ ∧
      files.get? place = some (.file bytes) ∧
      d ∉ (request.schemaFiles config root).map files.resolve := by
    intro d hd
    obtain ⟨⟨place, bytes, heq, hget⟩, hexcluded⟩ := ((hleads d).mp hd).exists_place
    exact ⟨place, bytes, heq, hget, hexcluded⟩
  have hself : ∀ d ∈ documents, (files.resolve d).stableKey (files.resolve root) =
      d.stableKey (files.resolve root) := by
    intro d hd
    obtain ⟨place, bytes, rfl, hget, -⟩ := hplace d hd
    rw [← List.append_nil place] at hget
    rw [hsound.resolve_self hget (by simp)]
  have hpaths := (map_path_of_traceFiles htraces).trans (List.map_congr_left hself)
  constructor
  · dsimp only
    rw [hpaths, List.pairwise_map]
    exact hstrict
  · intro trace htrace hschema
    obtain ⟨d, hd, hpath⟩ := List.mem_map.mp (hpaths ▸ List.mem_map_of_mem htrace)
    obtain ⟨other, hother, hsame⟩ := List.mem_map.mp hschema
    obtain ⟨path, hpath', hsettle⟩ := exists_of_mem_right (forall₂_of_mapM hresolved) hother
    obtain ⟨place, bytes, rfl, hget, hexcluded⟩ := hplace d hd
    obtain ⟨text, htext⟩ :=
      Schema.exists_text_of_loaded ((Schema.answers_load _ _).eq_ok hload) path hpath'
    obtain ⟨place', bytes', hresolve, hget'⟩ := FileTree.exists_place_of_readText htext
    have hne : place ≠ place' := by
      rintro rfl
      exact hexcluded (List.mem_map.mpr ⟨path, hpath', hresolve⟩)
    obtain rfl : other = ⟨.root, place'⟩ := (FileTree.resolve_of_settle hsettle).symm.trans hresolve
    have hanchor : root.anchor = .root := by
      rw [← FileTree.resolve_of_settle hroot]
      rfl
    exact stableKey_ne_of_ne hsound hanchor hget hget' hne (hpath.trans hsame.symm)

/-- The report of documents that were found has them in strict order and apart from the schema, and
it does not depend on the order of the patterns or of the entries of the file tree. -/
theorem found_documents_canonical {result : TraceResult} (hsound : files.Sound)
    (hfound : request.documents = []) (h : trace files request config start = .ok result after) :
    Ordered result ∧ ∀ files' patterns, files.Shuffled files' →
      (∀ pattern, pattern ∈ config.patterns ↔ pattern ∈ patterns) → ∀ start', ∃ after',
        trace files' request { config with patterns := patterns } start' = .ok result after' := by
  refine ⟨ordered_of_trace hsound hfound h, fun files' patterns hfiles hpatterns start' => ?_⟩
  exact entails_trace hsound hfound hfiles hpatterns _ _ _ h start'

/-- A shop with a document behind a link, one outside, and one that two patterns lead to. -/
def larder : FileTree where
  entries :=
    [(["shop"], .directory),
     (["shop", "asks"], .directory),
     (["shop", "asks", "b.gql"], .file "{ a { c } }".toUTF8.toList),
     (["shop", "asks", "a.gql"], .link "b.gql"),
     (["shop", "more.gql"], .link "/z.gql"),
     (["shop", "types.graphql"], .file "type Query { a: Query }".toUTF8.toList),
     (["z.gql"], .file "{ a }".toUTF8.toList)]
  current := ["shop"]

def larderRequest : Request := ⟨Path.ofText ".", [Path.ofText "types.graphql"], []⟩

def larderConfig : Config := ⟨[], ["**/*", "asks/*"], ["operation_definition"], 1, false⟩

def larderSearch : Discovery.Search :=
  ⟨⟨.root, ["shop"]⟩, larderConfig.patterns, 1, [⟨.root, ["shop", "types.graphql"]⟩]⟩

def larderDocuments : List Path := [⟨.root, ["z.gql"]⟩, ⟨.root, ["shop", "asks", "b.gql"]⟩]

theorem run_larder (start : List Notice) :
    ∃ after, Discovery.run larder larderSearch start = .ok larderDocuments after := by
  have hsearch : Discovery.Searchable larder larderSearch := by
    refine ⟨by decide +kernel, fun pattern hpattern => ?_⟩
    have hread : ∀ pattern ∈ larderSearch.patterns, (Glob.parse pattern).isOk = true := by
      decide +kernel
    exact Glob.exists_parse_iff.mp (exists_of_isOk (hread pattern hpattern))
  -- The search meets the document that is not outside four times.
  have hfound : Discovery.found larder larderSearch =
      larderDocuments ++ .replicate 3 larderDocuments[1] := by decide +kernel
  have hdistinct : (larderDocuments ++ .replicate 3 larderDocuments[1]).eraseDups =
      larderDocuments := by decide +kernel
  have hroot : larder.resolve larderSearch.root = ⟨.root, ["shop"]⟩ := by decide +kernel
  have horder : Discovery.documents larder larderSearch = larderDocuments := by
    rw [Discovery.documents, hfound, hroot, Discovery.inOrder, hdistinct]
    exact List.mergeSort_of_pairwise (by decide +kernel)
  rw [Discovery.notes_run hsearch, horder]
  exact ⟨_, rfl⟩

theorem trace_larder : ∃ result after,
    trace larder larderRequest larderConfig [] = .ok result after ∧
      result.documents.map (fun document => document.path) = ["/z.gql", "asks/b.gql"] := by
  have hroot : larder.settle larderRequest.root = .ok larderSearch.root := by decide +kernel
  have hschemas : larderRequest.schemaFiles larderConfig larderSearch.root =
      larderSearch.exclude := by decide +kernel
  have hresolved : larderSearch.exclude.mapM larder.settle = .ok larderSearch.exclude := by
    decide +kernel
  have hnames : larderSearch.exclude.map (fun path => path.stableKey larderSearch.root) =
      ["types.graphql"] := by decide +kernel
  have hloaded : (Schema.loaded larder larderSearch.exclude).isOk = true := by decide +kernel
  have hread : ∀ d ∈ larderDocuments, (readDocument larder d).isOk = true := by decide +kernel
  have hdisplayed : ∀ d ∈ larderDocuments,
      (displayPath larder (some larderSearch.root) d).isOk = true := by decide +kernel
  have hpaths : larderDocuments.map (fun d =>
      (larder.resolve d).stableKey (larder.resolve larderSearch.root)) =
        ["/z.gql", "asks/b.gql"] := by decide +kernel
  obtain ⟨schema, hschema⟩ := exists_of_isOk hloaded
  obtain ⟨s, hload⟩ := (Schema.answers_load _ _).of_eq_ok hschema []
  obtain ⟨t, hfind⟩ := run_larder s
  obtain ⟨traces, htraced⟩ : ∃ traces, larderDocuments.mapM
      (traced larder schema larderConfig.kinds (some larderSearch.root)) = .ok traces := by
    refine exists_mapM fun d hd => ?_
    obtain ⟨document, hdocument⟩ := exists_of_isOk (hread d hd)
    obtain ⟨name, hname⟩ := exists_of_isOk (hdisplayed d hd)
    exact exists_traced schema _ hdocument hname
  have hall : tracedAll larder schema larderConfig.kinds (some larderSearch.root)
      larderDocuments = .ok traces := by
    have htop : (some larderSearch.root).mapM larder.settle = .ok (some larderSearch.root) := by
      decide +kernel
    rw [tracedAll, htop]
    exact htraced
  obtain ⟨u, htraces⟩ := (answers_traceFiles _ _ _ _ _).of_eq_ok hall t
  refine ⟨⟨["types.graphql"], traces⟩, u ++ [.traced traces.length], trace_eq_ok.mpr ?_,
    (map_path_of_traceFiles htraces).trans hpaths⟩
  refine ⟨larderSearch.root, schema, larderDocuments, traces, larderSearch.exclude, s, t, u, hroot,
    ?_⟩
  rw [hschemas]
  exact ⟨hload, hfind, htraces, hresolved, by rw [hnames], rfl⟩

/-- The larder's entries the other way round, and its patterns too, one of them twice. -/
theorem found_documents_canonical_in_larder :
    ∃ result after after', trace larder larderRequest larderConfig [] = .ok result after ∧
      result.documents.map (fun document => document.path) = ["/z.gql", "asks/b.gql"] ∧
      larder.Sound ∧ Ordered result ∧
      trace { larder with entries := larder.entries.reverse } larderRequest
        { larderConfig with patterns := ["asks/*", "**/*", "asks/*"] } [] = .ok result after' := by
  have hsound : larder.Sound := ⟨by decide, by decide, by decide, by decide⟩
  have hpatterns (pattern : String) : pattern ∈ larderConfig.patterns ↔
      pattern ∈ ["asks/*", "**/*", "asks/*"] := by
    simp only [larderConfig, List.mem_cons, List.not_mem_nil, or_false]
    grind
  obtain ⟨result, after, htrace, hpaths⟩ := trace_larder
  obtain ⟨hordered, hsame⟩ := found_documents_canonical hsound rfl htrace
  have hturned : larder.Shuffled { larder with entries := larder.entries.reverse } :=
    ⟨(List.reverse_perm larder.entries).symm, rfl⟩
  obtain ⟨after', htrace'⟩ := hsame _ _ hturned hpatterns []
  exact ⟨result, after, after', htrace, hpaths, hsound, hordered, htrace'⟩

end Workspace

end TypeTrace
