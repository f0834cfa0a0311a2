import TypeTrace.Config
import TypeTrace.Proofs.Trace
import TypeTrace.Report.Payload

/-! # The form of a report

A form says what members a JSON value has and what they may hold. The report of a result has the
form of trace reports if its entries come from documents, for there every node stands at a place
that a text can have and no depth falls below zero. The totals of a report count what it lists,
wherever that comes from.
-/

namespace TypeTrace

/-! ## Forms of JSON values -/

/-- A form of JSON values. -/
inductive Form where
  | text
  | oneOf (texts : List String)
  | flag
  | number (least : Int)
  | orNull (form : Form)
  | list (items : Form)
  | object (members : List (String × Form))

mutual

/-- Whether a value has a form. An object has the members of its form, all of them and no others. -/
def Form.fits : Form → Json → Bool
  | .text, .text _ => true
  | .oneOf texts, .text value => texts.contains value
  | .flag, .bool _ => true
  | .number least, .int value => decide (least ≤ value)
  | .orNull _, .null => true
  | .orNull form, value => form.fits value
  | .list form, .list items => items.all form.fits
  | .object forms, .object members => Form.fitMembers forms members
  | _, _ => false

/-- Whether the members of an object are those of a form, in its order. -/
def Form.fitMembers : List (String × Form) → List (String × Json) → Bool
  | [], [] => true
  | (key, form) :: forms, (name, value) :: members =>
    key == name && form.fits value && Form.fitMembers forms members
  | _, _ => false

end

theorem Form.fits_ofText? (value : Option String) : (orNull text).fits (Json.ofText? value) := by
  cases value <;> rfl

theorem Form.fits_ofInt? {least : Int} {value : Option Int} (h : ∀ n ∈ value, least ≤ n) :
    (orNull (number least)).fits (Json.ofInt? value) := by
  cases value with
  | none => rfl
  | some n => simpa [Json.ofInt?, Form.fits] using h n rfl

namespace Report

/-- The kinds that a report knows. -/
def kindForm : Form :=
  .oneOf
    ["selection_set", "field", "directive", "operation_definition", "inline_fragment",
     "fragment_definition", "variable_definition", "argument", "list_value", "object_field"]

def entryForm : Form :=
  .object
    [("kind", kindForm), ("name", .orNull .text), ("depth", .number 0),
     ("line", .orNull (.number 1)), ("column", .orNull (.number 1)), ("type", .orNull .text),
     ("parent_type", .orNull .text), ("input_type", .orNull .text), ("resolved", .flag)]

def documentForm : Form :=
  .object [("path", .text), ("unresolved", .number 0), ("entries", .list entryForm)]

/-- The form of trace reports. -/
def form : Form :=
  .object
    [("schema_version", .text), ("schema", .list .text), ("document_count", .number 0),
     ("entry_count", .number 0), ("unresolved_count", .number 0),
     ("documents", .list documentForm)]

/-! ## Reports of entries that come from documents -/

/-- An entry of a kind that can be traced, at a place that a text can have. -/
structure Traced (entry : Entry) : Prop where
  kind : entry.kind ∈ Config.tracedKinds
  depth : 0 ≤ entry.depth
  line : ∀ n ∈ entry.line, 1 ≤ n
  column : ∀ n ∈ entry.column, 1 ≤ n

theorem traced_ofDocument {schema : Schema} {lookup : FieldLookup} {kinds : List String}
    {document : Node} {entries : List Entry} (hdocument : document.WellFormed 5)
    (hkinds : kinds ⊆ Config.tracedKinds)
    (h : Trace.ofDocument schema lookup kinds document = .ok entries) :
    ∀ entry ∈ entries, Traced entry := by
  rw [Trace.ofDocument_eq hdocument] at h
  cases h
  rw [Trace.entriesAt, List.forall_mem_map]
  intro place hplace
  obtain ⟨hplace, hlists⟩ := List.mem_filter.mp hplace
  have hposition := (hdocument.of_mem_places place hplace).lexical.position
  constructor
  · exact hkinds (List.contains_iff_mem.mp hlists)
  · exact Int.natCast_nonneg _
  · intro line hline
    obtain ⟨p, hp, rfl⟩ := Option.map_eq_some_iff.mp hline
    exact Int.ofNat_le.mpr (hposition p hp).1
  · intro column hcolumn
    obtain ⟨p, hp, rfl⟩ := Option.map_eq_some_iff.mp hcolumn
    exact Int.ofNat_le.mpr (hposition p hp).2

/-- Every kind that can be traced is a kind that a report knows. -/
theorem fits_kind {kind : String} (h : kind ∈ Config.tracedKinds) : kindForm.fits (.text kind) := by
  have hall : ∀ kind ∈ Config.tracedKinds, kindForm.fits (.text kind) := by decide
  exact hall kind h

theorem fits_entryData {entry : Entry} (h : Traced entry) :
    entryForm.fits (entryData entry) := by
  have hline := Form.fits_ofInt? h.line
  have hcolumn := Form.fits_ofInt? h.column
  simp [entryForm, entryData, Form.fits, Form.fitMembers, fits_kind h.kind, h.depth, hline, hcolumn,
    Form.fits_ofText?]

theorem fits_documentData {document : DocumentTrace}
    (h : ∀ entry ∈ document.entries, Traced entry) :
    documentForm.fits (documentData document) := by
  have hentries : ∀ entry ∈ document.entries, entryForm.fits (entryData entry) :=
    fun entry hentry => fits_entryData (h entry hentry)
  simpa [documentForm, documentData, Form.fits, Form.fitMembers] using hentries

theorem fits_payload {result : TraceResult} (h : ∀ entry ∈ result.entries, Traced entry) :
    form.fits (payload result) := by
  have hdocuments : ∀ document ∈ result.documents, documentForm.fits (documentData document) :=
    fun document hdocument => fits_documentData fun entry hentry =>
      h entry (List.mem_flatMap_of_mem hdocument hentry)
  simpa [form, payload, Form.fits, Form.fitMembers] using hdocuments

/-! ## Totals -/

def member? (key : String) : Json → Option Json
  | .object members => members.lookup key
  | _ => none

def itemsOf (key : String) (value : Json) : List Json :=
  match member? key value with
  | some (.list items) => items
  | _ => []

def isUnresolved (entry : Json) : Bool :=
  match member? "resolved" entry with
  | some (.bool false) => true
  | _ => false

/-- The totals of a report are the numbers of what it lists. -/
structure Tallies (report : Json) : Prop where
  documents : member? "document_count" report = some (.int (itemsOf "documents" report).length)
  entries : member? "entry_count" report =
    some (.int ((itemsOf "documents" report).flatMap (itemsOf "entries")).length)
  unresolved : member? "unresolved_count" report =
    some (.int (((itemsOf "documents" report).flatMap (itemsOf "entries")).countP isUnresolved))
  inDocument : ∀ document ∈ itemsOf "documents" report,
    member? "unresolved" document =
      some (.int ((itemsOf "entries" document).countP isUnresolved))

theorem itemsOf_documentData (document : DocumentTrace) :
    itemsOf "entries" (documentData document) = document.entries.map entryData := rfl

theorem itemsOf_payload (result : TraceResult) :
    itemsOf "documents" (payload result) = result.documents.map documentData := rfl

theorem countP_entryData (entries : List Entry) :
    (entries.map entryData).countP isUnresolved = entries.countP fun entry => !entry.resolved := by
  have hentry (entry : Entry) : isUnresolved (entryData entry) = !entry.resolved := by
    change (match some (Json.bool entry.resolved) with
      | some (.bool false) => true
      | _ => false) = _
    cases entry.resolved <;> rfl
  rw [List.countP_map]
  exact List.countP_congr fun entry _ => by simp [hentry]

theorem tallies_payload (result : TraceResult) : Tallies (payload result) := by
  have hentries : (itemsOf "documents" (payload result)).flatMap (itemsOf "entries") =
      result.entries.map entryData := by
    rw [itemsOf_payload, List.flatMap_map, TraceResult.entries, List.map_flatMap]
    rfl
  constructor
  · rw [itemsOf_payload, List.length_map]
    rfl
  · rw [hentries, List.length_map]
    rfl
  · rw [hentries, countP_entryData]
    rfl
  · intro document hdocument
    rw [itemsOf_payload] at hdocument
    obtain ⟨document, -, rfl⟩ := List.mem_map.mp hdocument
    rw [itemsOf_documentData, countP_entryData]
    rfl

end Report
end TypeTrace
