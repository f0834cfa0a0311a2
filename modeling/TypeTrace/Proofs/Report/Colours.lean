import Mathlib.Data.List.Forall2
import TypeTrace.Proofs.Report.Lines

/-! # Colours only decorate

If the colour sequences are taken out of a listing in colour, what is left is the listing without
colours. No sequence reaches beyond what it was written for, for the texts of the result have no
escape character.
-/

namespace TypeTrace.Report

/-! ## Colour sequences -/

/-- A character between the bracket and the end of a colour sequence. -/
def isParameter (c : Char) : Bool := c.isDigit || c == ';'

/-- The length of the colour sequence that a text begins with, if it begins with one: an escape
character, a bracket, parameters and an `m`. -/
def sequenceLength? : List Char → Option Nat
  | '\x1b' :: '[' :: cs =>
      match cs.dropWhile isParameter with
      | 'm' :: _ => some ((cs.takeWhile isParameter).length + 3)
      | _ => none
  | _ => none

/-- A text without its colour sequences. `skip` characters still belong to the last of them. -/
def withoutColours : (skip : Nat) → List Char → List Char
  | _, [] => []
  | skip + 1, _ :: cs => withoutColours skip cs
  | 0, c :: cs =>
      match sequenceLength? (c :: cs) with
      | some length => withoutColours (length - 1) cs
      | none => c :: withoutColours 0 cs

/-- A text comes to another one without its colour sequences, whatever stands behind it. -/
def Sheds (coloured plain : String) : Prop :=
  ∀ rest, withoutColours 0 (coloured.toList ++ rest) = plain.toList ++ withoutColours 0 rest

namespace Sheds

variable {left left' right right' text : String}

theorem append (hleft : Sheds left left') (hright : Sheds right right') :
    Sheds (left ++ right) (left' ++ right') := by
  intro rest
  rw [String.toList_append, List.append_assoc, hleft, hright, String.toList_append,
    List.append_assoc]

/-- Where no escape character is, no sequence begins. -/
theorem of_lacks (h : Lacks '\x1b' text) : Sheds text text := by
  intro rest
  unfold Lacks at h
  generalize text.toList = cs at h
  induction cs with
  | nil => rfl
  | cons c cs ih =>
      obtain ⟨hc, hcs⟩ := not_or.mp (List.mem_cons.not.mp h)
      have hnone : sequenceLength? (c :: (cs ++ rest)) = none := by
        unfold sequenceLength?
        split
        · next heq => exact absurd (List.cons.inj heq).1.symm hc
        · rfl
      rw [List.cons_append, withoutColours, hnone]
      exact congrArg (c :: ·) (ih hcs)

theorem on (colour : Colour) : Sheds colour.on "" := by
  cases colour <;> exact fun rest => rfl

theorem off : Sheds colourOff "" := fun _ => rfl

theorem paint (colour : Colour) (h : Lacks '\x1b' text) :
    Sheds (paint true colour text) (paint false colour text) := by
  have hpainted := ((on colour).append (of_lacks h)).append off
  rwa [String.empty_append, String.append_empty] at hpainted

theorem intercalate {separator : String} {coloured plain : List String}
    (hseparator : Lacks '\x1b' separator) (h : List.Forall₂ Sheds coloured plain) :
    Sheds (String.intercalate separator coloured) (String.intercalate separator plain) := by
  induction h with
  | nil => exact fun _ => rfl
  | cons hfirst hothers ih =>
      cases hothers with
      | nil =>
          rw [String.intercalate_singleton, String.intercalate_singleton]
          exact hfirst
      | cons _ _ =>
          rw [String.intercalate_cons_of_ne_nil (List.cons_ne_nil _ _),
            String.intercalate_cons_of_ne_nil (List.cons_ne_nil _ _)]
          exact (hfirst.append (of_lacks hseparator)).append ih

end Sheds

/-! ## Listings -/

theorem escape_is_control : '\x1b'.toNat < 0x20 := by decide

theorem sheds_entryLine {e : Entry} (h : ∀ text ∈ e.texts, Lacks '\x1b' text) :
    Sheds (entryLine true e) (entryLine false e) := by
  have hmark : Sheds (if e.resolved then " " else paint true .red "!")
      (if e.resolved then " " else paint false .red "!") := by
    split
    · exact .of_lacks (by decide)
    · exact .paint .red (by decide)
  have hmiddle := Sheds.of_lacks (lacks_entryMiddle escape_is_control h)
  have hcontext := Sheds.paint .dim (lacks_context escape_is_control h)
  rw [entryLine_eq, entryLine_eq]
  exact (hmark.append hmiddle).append hcontext

theorem sheds_documentSection {d : DocumentTrace} (hpath : Lacks '\x1b' d.path)
    (h : ∀ text ∈ d.entries.flatMap Entry.texts, Lacks '\x1b' text) :
    Sheds (documentSection true d) (documentSection false d) := by
  refine .intercalate (by decide) (.cons (.of_lacks hpath) ?_)
  rw [List.forall₂_map_left_iff, List.forall₂_map_right_iff, List.forall₂_same]
  exact fun e he => sheds_entryLine fun text htext => h text (List.mem_flatMap_of_mem he htext)

theorem sheds_summary {r : TraceResult} (h : ∀ path ∈ r.schemaPaths, Lacks '\x1b' path) :
    Sheds (summary true r) (summary false r) := by
  have hnumber := Lacks.number (not_isDigit_of_control escape_is_control) r.unresolvedCount
  have hhead := lacks_summaryHead escape_is_control h
  rw [summary_eq, summary_eq]
  refine .intercalate (by decide) (List.rel_append ?_ (.cons ?_ .nil))
  · exact List.forall₂_same.mpr fun line hline => .of_lacks (hhead line hline)
  · exact .append (.of_lacks (by decide)) (.paint _ hnumber)

/-- A section in colour and without: it sheds its colours, and it is left out in both or in none. -/
structure Recoloured (coloured plain : String) : Prop where
  sheds : Sheds coloured plain
  isEmpty_eq : coloured.isEmpty = plain.isEmpty

theorem sheds_listing {r : TraceResult} (summaryOnly : Bool)
    (h : ∀ text ∈ r.texts, Lacks '\x1b' text) :
    Sheds (listing true summaryOnly r) (listing false summaryOnly r) := by
  obtain ⟨hschema, hdocuments⟩ := List.forall_mem_append.mp h
  have hdocument : ∀ d ∈ r.documents,
      Recoloured (documentSection true d) (documentSection false d) := by
    intro d hd
    have htexts := fun text htext => hdocuments text (List.mem_flatMap_of_mem hd htext)
    obtain ⟨hpath, hentries⟩ := List.forall_mem_cons.mp htexts
    refine ⟨sheds_documentSection hpath hentries, ?_⟩
    rw [isEmpty_documentSection, isEmpty_documentSection]
  have hsummary : Recoloured (summary true r) (summary false r) := by
    refine ⟨sheds_summary hschema, ?_⟩
    rw [isEmpty_summary, isEmpty_summary]
  have hsections : List.Forall₂ Recoloured
      (if summaryOnly then [] else r.documents.map (documentSection true))
      (if summaryOnly then [] else r.documents.map (documentSection false)) := by
    cases summaryOnly with
    | true => exact .nil
    | false =>
        refine List.forall₂_map_left_iff.mpr (List.forall₂_map_right_iff.mpr ?_)
        exact List.forall₂_same.mpr hdocument
  have hshown := List.rel_filter (p := fun s => !s.isEmpty) (q := fun s => !s.isEmpty)
    (fun _ _ (halike : Recoloured _ _) => by simp [halike.isEmpty_eq])
    (List.rel_append hsections (.cons hsummary .nil))
  exact .intercalate (by decide) (hshown.imp fun _ _ halike => halike.sheds)

/-- What is left of a listing in colour without its colour sequences is the listing without colours,
whether it is a summary only or not. -/
theorem listing_only_decorated {r : TraceResult} (summaryOnly : Bool)
    (h : ∀ text ∈ r.texts, '\x1b' ∉ text.toList) :
    String.ofList (withoutColours 0 (listing true summaryOnly r).toList) =
      listing false summaryOnly r := by
  have hlisting := sheds_listing summaryOnly h []
  rw [List.append_nil, withoutColours, List.append_nil] at hlisting
  rw [hlisting, String.ofList_toList]

/-- A result whose texts look like colour sequences that have lost their escape character. -/
def gallery : TraceResult where
  schemaPaths := ["[31m.graphql"]
  documents := [⟨"[2m", [⟨"field", some "0m", 0, some 1, some 3, none, some "Query", none, false⟩]⟩,
    ⟨"", []⟩, ⟨"m", []⟩]

theorem gallery_only_decorated :
    (∀ text ∈ gallery.texts, '\x1b' ∉ text.toList) ∧
      listing true false gallery ≠ listing false false gallery ∧
      String.ofList (withoutColours 0 (listing true false gallery).toList) =
        listing false false gallery := by
  have htexts : ∀ text ∈ gallery.texts, '\x1b' ∉ text.toList := by decide
  exact ⟨htexts, by decide +kernel, listing_only_decorated false htexts⟩

end TypeTrace.Report
