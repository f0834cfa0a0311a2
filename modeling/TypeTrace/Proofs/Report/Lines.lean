import TypeTrace.Proofs.Json.Lexical
import TypeTrace.Report.Listing

/-! # The lines of a listing

A listing writes its texts between characters that can be seen and blanks. Where a control character
stands in a line, it comes from a text of the result or from a colour.
-/

namespace TypeTrace

/-- A text in which a character does not occur. -/
def Lacks (c : Char) (text : String) : Prop := c ∉ text.toList

instance (c : Char) : DecidablePred (Lacks c) := fun text =>
  inferInstanceAs (Decidable (c ∉ text.toList))

/-- A text without control characters. -/
def Visible (text : String) : Prop := ∀ d ∈ text.toList, 0x20 ≤ d.toNat

instance : DecidablePred Visible := fun text => List.decidableBAll _ text.toList

/-- The texts of an entry. -/
def Entry.texts (e : Entry) : List String :=
  e.kind :: (e.name.toList ++ e.type.toList ++ e.parent.toList ++ e.input.toList)

/-- The texts of a result. -/
def TraceResult.texts (r : TraceResult) : List String :=
  r.schemaPaths ++ r.documents.flatMap fun d => d.path :: d.entries.flatMap Entry.texts

namespace Lacks

variable {c : Char} {left right : String}

theorem append (hleft : Lacks c left) (hright : Lacks c right) : Lacks c (left ++ right) := by
  unfold Lacks at *
  simp [hleft, hright]

theorem intercalate {separator : String} {texts : List String} (hseparator : Lacks c separator)
    (h : ∀ text ∈ texts, Lacks c text) : Lacks c (String.intercalate separator texts) := by
  induction texts with
  | nil => exact List.not_mem_nil
  | cons text texts ih =>
      obtain ⟨htext, htexts⟩ := List.forall_mem_cons.mp h
      by_cases hempty : texts = []
      · rw [hempty, String.intercalate_singleton]
        exact htext
      · rw [String.intercalate_cons_of_ne_nil hempty]
        exact (htext.append hseparator).append (ih htexts)

theorem of_visible {text : String} (hc : c.toNat < 0x20) (h : Visible text) : Lacks c text :=
  fun hmem => Nat.not_le.mpr hc (h c hmem)

theorem replicate {d : Char} (hd : c ≠ d) (n : Nat) :
    Lacks c (String.ofList (List.replicate n d)) := by
  intro hmem
  rw [String.toList_ofList] at hmem
  exact hd (List.eq_of_mem_replicate hmem)

theorem number (hdigit : c.isDigit = false) (n : Nat) : Lacks c (toString n) := by
  intro hmem
  rw [Nat.toString_eq_repr, Nat.repr_eq_ofList_toDigits, String.toList_ofList] at hmem
  rw [Json.isDigit_of_mem hmem] at hdigit
  cases hdigit

theorem integer (hdigit : c.isDigit = false) (hminus : c ≠ '-') (n : Int) :
    Lacks c (toString n) := by
  intro hmem
  cases n with
  | ofNat n =>
      rw [Int.ofNat_eq_natCast, Json.toList_toString_ofNat] at hmem
      rw [Json.isDigit_of_mem hmem] at hdigit
      cases hdigit
  | negSucc n =>
      rw [Json.toList_toString_negSucc] at hmem
      rcases List.mem_cons.mp hmem with hmem | hmem
      · exact hminus hmem
      · rw [Json.isDigit_of_mem hmem] at hdigit
        cases hdigit

end Lacks

theorem Entry.forall_texts_iff {P : String → Prop} {e : Entry} :
    (∀ text ∈ e.texts, P text) ↔ P e.kind ∧ (∀ name ∈ e.name, P name) ∧
      (∀ type ∈ e.type, P type) ∧ (∀ parent ∈ e.parent, P parent) ∧ ∀ input ∈ e.input, P input := by
  simp [texts, or_imp, forall_and]

namespace Report

/-- The lines of a document's section. -/
def documentLines (coloured : Bool) (d : DocumentTrace) : List String :=
  d.path :: d.entries.map (entryLine coloured)

/-- The lines of the summary but for the last one. -/
def summaryHead (r : TraceResult) : List String :=
  let schema := String.intercalate ", " r.schemaPaths
  ["  Trace summary", "  " ++ String.ofList (List.replicate 38 '─'),
   "  Schema      " ++ (if schema.isEmpty then "-" else schema),
   "  Documents   " ++ toString r.documents.length,
   "  Entries     " ++ toString r.entryCount]

/-- The last line of the summary. -/
def summaryEnd (coloured : Bool) (r : TraceResult) : String :=
  "  Unresolved  " ++ paint coloured (if r.unresolvedCount = 0 then .green else .red)
    (toString r.unresolvedCount)

/-- What stands in an entry's line between the mark and the context. -/
def entryMiddle (e : Entry) : String :=
  String.ofList (List.replicate (2 * (e.depth + 1)).toNat ' ') ++ label e ++ " [" ++ location e ++ "] "

theorem entryLine_eq (coloured : Bool) (e : Entry) :
    entryLine coloured e = (if e.resolved then " " else paint coloured .red "!") ++ entryMiddle e ++
      paint coloured .dim (context e) := by
  simp only [entryLine, entryMiddle, String.append_assoc]

theorem documentSection_eq (coloured : Bool) (d : DocumentTrace) :
    documentSection coloured d = String.intercalate "\n" (documentLines coloured d) := rfl

theorem summary_eq (coloured : Bool) (r : TraceResult) :
    summary coloured r = String.intercalate "\n" (summaryHead r ++ [summaryEnd coloured r]) := rfl

/-- A section is empty in colour if and only if it is empty. -/
theorem isEmpty_documentSection (coloured : Bool) (d : DocumentTrace) :
    (documentSection coloured d).isEmpty = (d.path.isEmpty && d.entries.isEmpty) := by
  rw [documentSection_eq, documentLines]
  cases hentries : d.entries with
  | nil => simp
  | cons e entries =>
      rw [List.map_cons, String.intercalate_cons_of_ne_nil (List.cons_ne_nil _ _)]
      simp [← Bool.not_eq_true, String.isEmpty_iff]

theorem isEmpty_summary (coloured : Bool) (r : TraceResult) :
    (summary coloured r).isEmpty = false := by
  rw [summary_eq, summaryHead, List.cons_append, String.intercalate_cons_of_ne_nil (by simp)]
  simp [String.isEmpty_eq_false_iff]

/-! ## Control characters -/

section

variable {c : Char} {e : Entry} {r : TraceResult} (hc : c.toNat < 0x20)
include hc

theorem not_isDigit_of_control : c.isDigit = false := by
  have hlow : ¬ 0x30 ≤ c.toNat := by omega
  exact Bool.eq_false_iff.mpr fun hdigit =>
    hlow (of_decide_eq_true (Bool.and_eq_true_iff.mp hdigit).1)

theorem lacks_orDash {text : Option String} (h : ∀ t ∈ text, Lacks c t) : Lacks c (orDash text) := by
  unfold orDash
  split
  · split
    · exact .of_visible hc (by decide)
    · exact h _ rfl
  · exact .of_visible hc (by decide)

theorem lacks_location (e : Entry) : Lacks c (location e) := by
  have hdigit := not_isDigit_of_control hc
  have hminus : c ≠ '-' := by
    rintro rfl
    exact absurd hc (by decide)
  have hnumber := Lacks.integer hdigit hminus
  have hcolon : Lacks c ":" := .of_visible hc (by decide)
  unfold location
  split
  · exact .of_visible hc (by decide)
  · refine ((hnumber _).append hcolon).append ?_
    split
    · exact hnumber _
    · exact .of_visible hc (by decide)

theorem lacks_label (h : ∀ text ∈ e.texts, Lacks c text) : Lacks c (label e) := by
  obtain ⟨hkind, hname, -⟩ := Entry.forall_texts_iff.mp h
  have hblank : Lacks c " " := .of_visible hc (by decide)
  unfold label
  split
  · next name heq =>
    split
    · exact hkind
    · exact (hkind.append hblank).append (hname name heq)
  · exact hkind

theorem lacks_context (h : ∀ text ∈ e.texts, Lacks c text) : Lacks c (context e) := by
  obtain ⟨-, -, htype, hparent, hinput⟩ := Entry.forall_texts_iff.mp h
  have htypeKey : Lacks c "type=" := .of_visible hc (by decide)
  have hparentKey : Lacks c " parent=" := .of_visible hc (by decide)
  have hinputKey : Lacks c " input=" := .of_visible hc (by decide)
  exact ((((htypeKey.append (lacks_orDash hc htype)).append hparentKey).append
    (lacks_orDash hc hparent)).append hinputKey).append (lacks_orDash hc hinput)

theorem lacks_entryMiddle (h : ∀ text ∈ e.texts, Lacks c text) : Lacks c (entryMiddle e) := by
  have hblank : c ≠ ' ' := by
    rintro rfl
    exact absurd hc (by decide)
  have hopen : Lacks c " [" := .of_visible hc (by decide)
  have hclose : Lacks c "] " := .of_visible hc (by decide)
  exact ((((Lacks.replicate hblank _).append (lacks_label hc h)).append hopen).append
    (lacks_location hc e)).append hclose

theorem lacks_entryLine (h : ∀ text ∈ e.texts, Lacks c text) : Lacks c (entryLine false e) := by
  have hmark : Lacks c (if e.resolved then " " else paint false .red "!") := by
    split
    · exact .of_visible hc (by decide)
    · exact .of_visible hc (by decide)
  rw [entryLine_eq]
  exact (hmark.append (lacks_entryMiddle hc h)).append (lacks_context hc h)

theorem lacks_summaryHead (h : ∀ path ∈ r.schemaPaths, Lacks c path) :
    ∀ line ∈ summaryHead r, Lacks c line := by
  have hdigit := not_isDigit_of_control hc
  have hcomma : Lacks c ", " := .of_visible hc (by decide)
  have hschema : Lacks c (if (String.intercalate ", " r.schemaPaths).isEmpty then "-"
      else String.intercalate ", " r.schemaPaths) := by
    split
    · exact .of_visible hc (by decide)
    · exact .intercalate hcomma h
  have hrule : c ≠ '─' := by
    rintro rfl
    exact absurd hc (by decide)
  simp only [summaryHead, List.forall_mem_cons]
  refine ⟨.of_visible hc (by decide), ?_, ?_, ?_, ?_, List.forall_mem_nil _⟩
  · exact .append (.of_visible hc (by decide)) (.replicate hrule 38)
  · exact .append (.of_visible hc (by decide)) hschema
  · exact .append (.of_visible hc (by decide)) (.number hdigit _)
  · exact .append (.of_visible hc (by decide)) (.number hdigit _)

end

end Report

end TypeTrace
