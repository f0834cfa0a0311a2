import TypeTrace.Proofs.Files.Failure
import TypeTrace.Proofs.Files.Utf8
import TypeTrace.Proofs.Json.Reading
import TypeTrace.Report.File

/-! # Reports are read back

From the file of a report its result is recovered, schema paths, documents and all. The text of the
file is in ASCII, so its bytes are its characters; it is one JSON value and a line feed behind it;
and the value says everything that is in the result. A result with a number that is too long has no
such text and is not written.
-/

namespace TypeTrace.Report

variable {α : Type}

/-! ## Results from data -/

def text? : Json → Option String
  | .text value => some value
  | _ => none

def int? : Json → Option Int
  | .int value => some value
  | _ => none

def flag? : Json → Option Bool
  | .bool value => some value
  | _ => none

/-- What may be null and is read by `read` if it is not. -/
def orNull? (read : Json → Option α) : Json → Option (Option α)
  | .null => some none
  | value => (read value).map some

def list? (read : Json → Option α) : Json → Option (List α)
  | .list items => items.mapM read
  | _ => none

def readMember? (key : String) (read : Json → Option α) (value : Json) : Option α :=
  (value.member? key).bind read

def entryOf? (value : Json) : Option Entry := do
  let kind ← readMember? "kind" text? value
  let name ← readMember? "name" (orNull? text?) value
  let depth ← readMember? "depth" int? value
  let line ← readMember? "line" (orNull? int?) value
  let column ← readMember? "column" (orNull? int?) value
  let type ← readMember? "type" (orNull? text?) value
  let parent ← readMember? "parent_type" (orNull? text?) value
  let input ← readMember? "input_type" (orNull? text?) value
  let resolved ← readMember? "resolved" flag? value
  return ⟨kind, name, depth, line, column, type, parent, input, resolved⟩

def documentOf? (value : Json) : Option DocumentTrace := do
  let path ← readMember? "path" text? value
  let entries ← readMember? "entries" (list? entryOf?) value
  return ⟨path, entries⟩

def resultOf? (value : Json) : Option TraceResult := do
  let schemaPaths ← readMember? "schema" (list? text?) value
  let documents ← readMember? "documents" (list? documentOf?) value
  return ⟨schemaPaths, documents⟩

/-- The result whose report a file holds. -/
def ofBytes? (bytes : List UInt8) : Option TraceResult := do
  let content ← (Utf8.readText bytes).toOption
  let value ← Json.read? content
  resultOf? value

/-! ## Data and back -/

theorem orNull?_ofText? (value : Option String) : orNull? text? (Json.ofText? value) = some value := by
  cases value <;> rfl

theorem orNull?_ofInt? (value : Option Int) : orNull? int? (Json.ofInt? value) = some value := by
  cases value <;> rfl

theorem list?_map {write : α → Json} {read : Json → Option α} (h : ∀ a, read (write a) = some a)
    (items : List α) : list? read (.list (items.map write)) = some items := by
  rw [list?]
  induction items with
  | nil => rfl
  | cons item items ih => simp [List.mapM_cons, h item, ih]

theorem entryOf?_entryData (e : Entry) : entryOf? (entryData e) = some e := by
  have hname := orNull?_ofText? e.name
  have hline := orNull?_ofInt? e.line
  have hcolumn := orNull?_ofInt? e.column
  have htype := orNull?_ofText? e.type
  have hparent := orNull?_ofText? e.parent
  have hinput := orNull?_ofText? e.input
  simp [entryOf?, entryData, readMember?, Json.member?, List.lookup_cons, text?, int?, flag?, hname,
    hline, hcolumn, htype, hparent, hinput]

theorem documentOf?_documentData (d : DocumentTrace) : documentOf? (documentData d) = some d := by
  have hentries := list?_map entryOf?_entryData d.entries
  simp [documentOf?, documentData, readMember?, Json.member?, List.lookup_cons, text?, hentries]

theorem resultOf?_payload (r : TraceResult) : resultOf? (payload r) = some r := by
  have htext (value : String) : text? (.text value) = some value := rfl
  have hschema := list?_map htext r.schemaPaths
  have hdocuments := list?_map documentOf?_documentData r.documents
  simp [resultOf?, payload, readMember?, Json.member?, List.lookup_cons, hschema, hdocuments]

/-! ## Numbers -/

def entryNumbers (e : Entry) : List Int := e.depth :: (e.line.toList ++ e.column.toList)

def documentNumbers (d : DocumentTrace) : List Int :=
  (d.unresolved : Int) :: d.entries.flatMap entryNumbers

/-- The whole numbers that a report holds: what it counts, and those of all its entries. -/
def numbers (r : TraceResult) : List Int :=
  (r.documents.length : Int) :: (r.entryCount : Int) :: (r.unresolvedCount : Int) ::
    r.documents.flatMap documentNumbers

section

variable {limited : Bool} {depth : Nat}

theorem hasText_entryData {e : Entry} : (entryData e).HasText limited depth ↔
    (limited = true → ∀ n ∈ entryNumbers e, Text.isShort n = true) := by
  simp only [entryData, entryNumbers, Json.hasText_object_iff, List.forall_mem_cons, Json.hasText_text,
    Json.hasText_ofText?, Json.hasText_int_iff, Json.hasText_ofInt?_iff, Json.hasText_bool,
    List.forall_mem_append]
  tauto

theorem hasText_documentData {d : DocumentTrace} : (documentData d).HasText limited depth ↔
    (limited = true → ∀ n ∈ documentNumbers d, Text.isShort n = true) := by
  simp only [documentData, documentNumbers, Json.hasText_object_iff, List.forall_mem_cons,
    Json.hasText_text, Json.hasText_int_iff, Json.hasText_list_iff, List.forall_mem_map,
    hasText_entryData, List.forall_mem_flatMap]
  tauto

/-- There is a text for a report if its numbers are short, or do not have to be. -/
theorem hasText_payload {r : TraceResult} : (payload r).HasText limited depth ↔
    (limited = true → ∀ n ∈ numbers r, Text.isShort n = true) := by
  simp only [payload, numbers, Json.hasText_object_iff, List.forall_mem_cons, Json.hasText_text,
    Json.hasText_int_iff, Json.hasText_list_iff, List.forall_mem_map, hasText_documentData,
    List.forall_mem_flatMap]
  tauto

end

theorem exists_render_payload {r : TraceResult} :
    (∃ content, (payload r).render = .ok content) ↔ ∀ n ∈ numbers r, Text.isShort n = true := by
  change (payload r).HasText true 0 ↔ _
  exact hasText_payload.trans (forall_prop_of_true rfl)

theorem exists_fullText_payload (r : TraceResult) : ∃ content, (payload r).fullText = .ok content :=
  hasText_payload.mpr nofun

theorem fullText_of_render {r : TraceResult} {content : String}
    (h : (payload r).render = .ok content) : (payload r).fullText = .ok content := by
  obtain ⟨full, hfull⟩ := exists_fullText_payload r
  rcases Json.limits_renderAt 0 (payload r) full hfull with heq | heq
  · cases h.symm.trans heq
    exact hfull
  · cases h.symm.trans heq

/-- All that can be wrong with a report is a number that is too long. -/
theorem eq_longNumber_of_render {r : TraceResult} {fault : Json.Fault}
    (h : (payload r).render = .error fault) : fault = .longNumber := by
  obtain ⟨full, hfull⟩ := exists_fullText_payload r
  rcases Json.limits_renderAt 0 (payload r) full hfull with heq | heq
  · cases h.symm.trans heq
  · cases h.symm.trans heq
    rfl

/-! ## Files and back -/

theorem ofBytes?_render {r : TraceResult} {content : String}
    (h : (payload r).render = .ok content) : ofBytes? (Utf8.bytesOf (content ++ "\n")) = some r := by
  have hplain : Json.PlainText (content ++ "\n") :=
    (Json.plainText_renderAt 0 _ content h).append (by decide)
  have hbytes := Utf8.readText_bytesOf fun c hc => (hplain c hc).ne_return
  have hvalue := Json.read?_renderAt h "\n" (by decide)
  rw [ofBytes?, hbytes]
  simp [Except.toOption, hvalue, resultOf?_payload]

/-- What a text of a report is: characters of ASCII, an object that is read as the report, with the line
feed behind it, a file that is read as the result, and the text of no other result. -/
structure Encodes (r : TraceResult) (content : String) : Prop where
  plain : ∀ c ∈ content.toList, Json.IsPlain c
  closed : content.toList.getLast? = some '\x7d'
  value : Json.read? (content ++ "\n") = some (payload r)
  result : ofBytes? (Utf8.bytesOf (content ++ "\n")) = some r
  only : ∀ other, (payload other).render = .ok content → other = r

theorem encodes_render {r : TraceResult} {content : String} (h : (payload r).render = .ok content) :
    Encodes r content where
  plain := Json.plainText_renderAt 0 _ content h
  closed := Json.getLast?_object h
  value := Json.read?_renderAt h "\n" (by decide)
  result := ofBytes?_render h
  only other hother := by
    have hsame := ofBytes?_render hother
    rw [ofBytes?_render h] at hsame
    exact (Option.some.inj hsame).symm

section

variable {naming : AtomicWrite.Naming} {files after : FileTree} {directory path : Path}
  {r : TraceResult} {changes : List Change}

theorem writeFile_eq_ok
    (h : AtomicWrite.run files (writeFile naming directory r) = (after, changes, .ok path)) :
    path = directory.child fileName ∧ ∃ content, (payload r).render = .ok content ∧
      AtomicWrite.Placed files path (Utf8.bytesOf (content ++ "\n")) changes after := by
  unfold AtomicWrite.run at h
  split at h
  · next hwritten =>
    obtain ⟨_, s, hjson, hrest⟩ := Stateful.exists_of_bind_eq_ok hwritten
    cases hrest
    cases h
    obtain ⟨content, changes', hrender, hchanges, hplaced⟩ := AtomicWrite.writeJson_eq_ok hjson
    cases hchanges
    exact ⟨rfl, content, hrender, hplaced⟩
  · cases h

/-- Where the report has no text, nothing but directories has been made. -/
theorem writeFile_eq_error {fault : Json.Fault}
    (h : AtomicWrite.run files (writeFile naming directory r) = (after, changes, .error (.value fault))) :
    (payload r).render = .error .longNumber ∧ fault = .longNumber ∧ files.Grown after := by
  unfold AtomicWrite.run at h
  split at h
  · cases h
  · next hwritten =>
    rcases Stateful.of_bind_eq_error hwritten with hjson | ⟨_, s, -, hrest⟩
    · cases h
      have hrender := AtomicWrite.render_of_writeJson hjson
      obtain rfl := eq_longNumber_of_render hrender
      cases AtomicWrite.fails_writeJson hjson with
      | early _ hgrown => exact ⟨hrender, rfl, hgrown⟩
      | late hfault => cases hfault
    · cases hrest

end

/-- A report has a text if its numbers are short, and from that text the result is recovered. If the
report is written to a file, that text stands there with a line feed behind it. If it is not written
because of itself, a number in it is too long, and nothing but directories has been made. -/
theorem file_is_read_back (r : TraceResult) :
    ((∃ content, (payload r).render = .ok content) ↔ ∀ n ∈ numbers r, Text.isShort n = true) ∧
    (∀ content, (payload r).render = .ok content → Encodes r content) ∧
    (∀ naming files directory after changes path,
      AtomicWrite.run files (writeFile naming directory r) = (after, changes, .ok path) →
        path = directory.child fileName ∧ ∃ content, (payload r).render = .ok content ∧
          AtomicWrite.Placed files path (Utf8.bytesOf (content ++ "\n")) changes after) ∧
    ∀ naming files directory after changes fault,
      AtomicWrite.run files (writeFile naming directory r) =
        (after, changes, .error (.value fault)) →
          fault = .longNumber ∧ (∃ n ∈ numbers r, Text.isShort n = false) ∧ files.Grown after := by
  refine ⟨exists_render_payload, fun content => encodes_render,
    fun naming files directory after changes path => writeFile_eq_ok, ?_⟩
  intro naming files directory after changes fault h
  obtain ⟨hrender, rfl, hgrown⟩ := writeFile_eq_error h
  refine ⟨rfl, ?_, hgrown⟩
  by_contra hnone
  have hshort : ∀ n ∈ numbers r, Text.isShort n = true := fun n hn =>
    Bool.of_not_eq_false fun hlong => hnone ⟨n, hn, hlong⟩
  obtain ⟨content, hcontent⟩ := exists_render_payload.mpr hshort
  cases hcontent.symm.trans hrender

/-- A result with a depth of one digit too many. -/
def abyss : TraceResult :=
  ⟨[], [⟨"a.gql", [⟨"field", none, Nat.pow 10 Text.digitLimit, none, none, none, none, none, true⟩]⟩]⟩

/-- A place with a directory that has the name of a report. -/
def cupboard : FileTree where
  entries :=
    [(["cupboard"], .directory), (["cupboard", "out"], .directory),
     (["cupboard", "out", "trace.json"], .directory)]
  current := ["cupboard"]

/-- A report with a number that is too long is written nowhere, and nothing is left where it was to be. No
report takes the place of a directory. -/
theorem unwritten_report_in_cupboard :
    (∀ naming files directory after changes path,
      AtomicWrite.run files (writeFile naming directory abyss) ≠ (after, changes, .ok path)) ∧
    (∃ after changes,
      AtomicWrite.run cupboard (writeFile .counting (Path.ofText "new") abyss) =
        (after, changes, .error (.value .longNumber)) ∧
      after.pathExists (Path.ofText "new/trace.json") = false) ∧
    ∃ after changes error,
      AtomicWrite.run cupboard (writeFile .counting (Path.ofText "out") ⟨[], []⟩) =
        (after, changes, .error (.os error)) ∧
      after.isDirectory (Path.ofText "out/trace.json") = true := by
  have hlong : ¬ ∀ n ∈ numbers abyss, Text.isShort n = true := by decide +kernel
  refine ⟨?_, ?_, ?_⟩
  · intro naming files directory after changes path h
    obtain ⟨-, content, hrender, -⟩ := writeFile_eq_ok h
    exact hlong (exists_render_payload.mp ⟨content, hrender⟩)
  · let step := writeFile .counting (Path.ofText "new") abyss
    have hfault : fault? (AtomicWrite.run cupboard step).2.2 = some (.value .longNumber) := by
      decide +kernel
    have hrun := AtomicWrite.run_eq_error hfault
    have hnone : (AtomicWrite.run cupboard step).1.pathExists (Path.ofText "new/trace.json") =
        false := by decide +kernel
    exact ⟨_, _, hrun, hnone⟩
  · let step := writeFile .counting (Path.ofText "out") ⟨[], []⟩
    let error : OsError :=
      ⟨.isDirectory, some "/cupboard/out/.tmp-00000000.json", some "out/trace.json"⟩
    have hfault : fault? (AtomicWrite.run cupboard step).2.2 = some (.os error) := by
      decide +kernel
    have hrun := AtomicWrite.run_eq_error hfault
    have hthere : (AtomicWrite.run cupboard step).1.isDirectory (Path.ofText "out/trace.json") =
        true := by decide +kernel
    exact ⟨_, _, error, hrun, hthere⟩

end TypeTrace.Report
