import TypeTrace.Json
import TypeTrace.Trace

/-!
# Trace reports as data

The report of a trace as a JSON value: what was traced, the totals, and every entry with all that is
known of it.
-/

namespace TypeTrace.Report

def schemaVersion : String := "1.0.0"

def entryData (e : Entry) : Json :=
  .object
    [("kind", .text e.kind),
     ("name", Json.ofText? e.name),
     ("depth", .int e.depth),
     ("line", Json.ofInt? e.line),
     ("column", Json.ofInt? e.column),
     ("type", Json.ofText? e.type),
     ("parent_type", Json.ofText? e.parent),
     ("input_type", Json.ofText? e.input),
     ("resolved", .bool e.resolved)]

def documentData (d : DocumentTrace) : Json :=
  .object
    [("path", .text d.path),
     ("unresolved", .int d.unresolved),
     ("entries", .list (d.entries.map entryData))]

def payload (r : TraceResult) : Json :=
  .object
    [("schema_version", .text schemaVersion),
     ("schema", .list (r.schemaPaths.map .text)),
     ("document_count", .int r.documents.length),
     ("entry_count", .int r.entryCount),
     ("unresolved_count", .int r.unresolvedCount),
     ("documents", .list (r.documents.map documentData))]

end TypeTrace.Report
