import TypeTrace.Proofs.Report.Lines
import TypeTrace.Proofs.Results

/-! # Reading a listing

A listing is cut into sections at its empty lines, a section into the path and its entries at its line
ends, and the line of an entry into words at its blanks. The number of words tells whether the entry
has a name. If no text has the characters at which the cuts are made, the documents are read back as
they were.
-/

namespace TypeTrace.Report.Listing

/-! ## What can be read back -/

/-- A text that takes the place of one word. -/
structure IsWord (text : String) : Prop where
  ne_empty : text ≠ ""
  noBlank : Lacks ' ' text
  noLineEnd : Lacks '\n' text

/-- A line of its own: one that is not empty and does not end before its end. -/
structure IsLine (line : String) : Prop where
  ne_empty : line ≠ ""
  noLineEnd : Lacks '\n' line

/-- An entry whose parts can be told apart in a line. -/
structure IsListable (e : Entry) : Prop where
  kind : IsWord e.kind
  name : ∀ name ∈ e.name, IsWord name
  type : ∀ type ∈ e.type, IsWord type ∧ type ≠ "-"
  parent : ∀ parent ∈ e.parent, IsWord parent ∧ parent ≠ "-"
  input : ∀ input ∈ e.input, IsWord input ∧ input ≠ "-"
  depth : 0 ≤ e.depth
  location : e.line.isSome = e.column.isSome

/-- A result whose documents can be told apart in a listing. -/
structure Listable (r : TraceResult) : Prop where
  schema : ∀ path ∈ r.schemaPaths, Lacks '\n' path
  path : ∀ d ∈ r.documents, IsLine d.path
  entries : ∀ d ∈ r.documents, ∀ e ∈ d.entries, IsListable e

instance : DecidablePred IsWord := fun text =>
  decidable_of_iff (text ≠ "" ∧ Lacks ' ' text ∧ Lacks '\n' text)
    ⟨fun ⟨hne, hblank, hend⟩ => ⟨hne, hblank, hend⟩,
      fun h => ⟨h.ne_empty, h.noBlank, h.noLineEnd⟩⟩

instance : DecidablePred IsLine := fun line =>
  decidable_of_iff (line ≠ "" ∧ Lacks '\n' line)
    ⟨fun ⟨hne, hend⟩ => ⟨hne, hend⟩, fun h => ⟨h.ne_empty, h.noLineEnd⟩⟩

instance : DecidablePred IsListable := fun e =>
  decidable_of_iff
    (IsWord e.kind ∧ (∀ name ∈ e.name, IsWord name) ∧ (∀ type ∈ e.type, IsWord type ∧ type ≠ "-") ∧
      (∀ parent ∈ e.parent, IsWord parent ∧ parent ≠ "-") ∧
      (∀ input ∈ e.input, IsWord input ∧ input ≠ "-") ∧ 0 ≤ e.depth ∧
      e.line.isSome = e.column.isSome)
    ⟨fun ⟨hkind, hname, htype, hparent, hinput, hdepth, hlocation⟩ =>
        ⟨hkind, hname, htype, hparent, hinput, hdepth, hlocation⟩,
      fun h => ⟨h.kind, h.name, h.type, h.parent, h.input, h.depth, h.location⟩⟩

instance : DecidablePred Listable := fun r =>
  decidable_of_iff
    ((∀ path ∈ r.schemaPaths, Lacks '\n' path) ∧ (∀ d ∈ r.documents, IsLine d.path) ∧
      ∀ d ∈ r.documents, ∀ e ∈ d.entries, IsListable e)
    ⟨fun ⟨hschema, hpath, hentries⟩ => ⟨hschema, hpath, hentries⟩,
      fun h => ⟨h.schema, h.path, h.entries⟩⟩

/-! ## Readers -/

/-- The parts of a text between the places where a character stands. -/
def partsAt (c : Char) (text : String) : List String := (text.toList.splitOn c).map String.ofList

/-- What a word says behind its key. A dash says that there is nothing. -/
def valueOf (key word : String) : Option String :=
  let value := String.ofList (word.toList.drop key.length)
  if value = "-" then none else some value

/-- The line and the column that a word in brackets says. -/
def placeOf (word : String) : Option Int × Option Int :=
  match Json.readInt (word.toList.drop 1) with
  | some (line, _ :: cs) =>
      match Json.readInt cs with
      | some (column, _) => (some line, some column)
      | none => (none, none)
  | _ => (none, none)

/-- The entry of a line, from its words. -/
def entryOfWords? (resolved : Bool) (depth : Int) : List String → Option Entry
  | [kind, place, type, parent, input] =>
      some ⟨kind, none, depth, (placeOf place).1, (placeOf place).2, valueOf "type=" type,
        valueOf "parent=" parent, valueOf "input=" input, resolved⟩
  | [kind, name, place, type, parent, input] =>
      some ⟨kind, some name, depth, (placeOf place).1, (placeOf place).2, valueOf "type=" type,
        valueOf "parent=" parent, valueOf "input=" input, resolved⟩
  | _ => none

/-- The entry of a line. -/
def entryOf? (line : String) : Option Entry :=
  match line.toList with
  | [] => none
  | mark :: cs =>
      let indent := (cs.takeWhile (· = ' ')).length
      entryOfWords? (mark = ' ') (indent / 2 - 1 : Int)
        (partsAt ' ' (String.ofList (cs.dropWhile (· = ' '))))

/-- The document of a section. -/
def documentOf? : List String → Option DocumentTrace
  | [] => none
  | path :: lines => (lines.mapM entryOf?).map fun entries => ⟨path, entries⟩

/-- The documents of a listing. The last section is the summary. -/
def documentsOf? (text : String) : Option (List DocumentTrace) :=
  ((partsAt '\n' text).splitOn "").dropLast.mapM documentOf?

/-! ## Words -/

theorem partsAt_intercalate {c : Char} {separator : String} {texts : List String}
    (hseparator : separator.toList = [c]) (hne : texts ≠ []) (h : ∀ text ∈ texts, Lacks c text) :
    partsAt c (String.intercalate separator texts) = texts := by
  have hlacks : ∀ cs ∈ texts.map String.toList, c ∉ cs := List.forall_mem_map.mpr h
  rw [partsAt, String.toList_intercalate, hseparator,
    List.splitOn_intercalate c hlacks (by simpa using hne), List.map_map]
  simp [Function.comp_def]

/-- The words of an entry's line. -/
def wordsOf (e : Entry) : List String :=
  e.kind :: (e.name.toList ++ ["[" ++ location e ++ "]", "type=" ++ orDash e.type,
    "parent=" ++ orDash e.parent, "input=" ++ orDash e.input])

theorem intercalate_wordsOf {e : Entry} (h : IsListable e) :
    label e ++ " [" ++ location e ++ "] " ++ context e = String.intercalate " " (wordsOf e) := by
  have hopen : " [" = " " ++ "[" := rfl
  have hclose : "] " = "]" ++ " " := rfl
  have hparent : " parent=" = " " ++ "parent=" := rfl
  have hinput : " input=" = " " ++ "input=" := rfl
  unfold label wordsOf context
  cases hname : e.name with
  | none =>
      simp only [hopen, hclose, hparent, hinput, Option.toList_none, List.nil_append,
        String.intercalate_cons_cons, String.intercalate_singleton, String.append_assoc]
  | some name =>
      have hne : ¬ name.isEmpty = true := by
        simpa [String.isEmpty_iff] using (h.name name hname).ne_empty
      simp only [hopen, hclose, hparent, hinput, if_neg hne, Option.toList_some, List.cons_append,
        List.nil_append, String.intercalate_cons_cons, String.intercalate_singleton,
        String.append_assoc]

theorem lacks_blank_orDash {text : Option String} (h : ∀ t ∈ text, IsWord t ∧ t ≠ "-") :
    Lacks ' ' (orDash text) := by
  unfold orDash
  split
  · next t =>
    split
    · decide
    · exact (h t rfl).1.noBlank
  · decide

theorem lacks_blank_location {e : Entry} (h : e.line.isSome = e.column.isSome) :
    Lacks ' ' (location e) := by
  have hnumber := Lacks.integer (c := ' ') (by decide) (by decide)
  have hcolon : Lacks ' ' ":" := by decide
  unfold location
  split
  · decide
  · next line hline =>
    split
    · exact ((hnumber _).append hcolon).append (hnumber _)
    · next hcolumn => simp [hline, hcolumn] at h

theorem lacks_blank_wordsOf {e : Entry} (h : IsListable e) : ∀ word ∈ wordsOf e, Lacks ' ' word := by
  have hopen : Lacks ' ' "[" := by decide
  have hclose : Lacks ' ' "]" := by decide
  have htype : Lacks ' ' "type=" := by decide
  have hparent : Lacks ' ' "parent=" := by decide
  have hinput : Lacks ' ' "input=" := by decide
  have hname : ∀ name ∈ e.name.toList, Lacks ' ' name :=
    fun name hname => (h.name name (Option.mem_toList.mp hname)).noBlank
  refine List.forall_mem_cons.mpr ⟨h.kind.noBlank, List.forall_mem_append.mpr ⟨hname, ?_⟩⟩
  simp only [List.forall_mem_cons]
  refine ⟨(hopen.append (lacks_blank_location h.location)).append hclose,
    htype.append (lacks_blank_orDash h.type), hparent.append (lacks_blank_orDash h.parent),
    hinput.append (lacks_blank_orDash h.input), List.forall_mem_nil _⟩

theorem valueOf_orDash (key : String) {text : Option String}
    (h : ∀ t ∈ text, IsWord t ∧ t ≠ "-") : valueOf key (key ++ orDash text) = text := by
  have hdrop : String.ofList ((key ++ orDash text).toList.drop key.length) = orDash text := by
    rw [String.toList_append, ← String.length_toList, List.drop_left, String.ofList_toList]
  unfold valueOf
  rw [hdrop]
  cases text with
  | none => rfl
  | some t =>
      have ⟨hword, hdash⟩ := h t rfl
      have hne : ¬ t.isEmpty = true := by simpa [String.isEmpty_iff] using hword.ne_empty
      simp only [orDash, if_neg hne, if_neg hdash]

theorem placeOf_location {e : Entry} (h : e.line.isSome = e.column.isSome) :
    placeOf ("[" ++ location e ++ "]") = (e.line, e.column) := by
  unfold location placeOf
  cases hline : e.line with
  | none =>
      have hcolumn : e.column = none := by simpa [hline] using h.symm
      rw [hcolumn]
      rfl
  | some line =>
      obtain ⟨column, hcolumn⟩ : ∃ column, e.column = some column := by
        simpa [hline, Option.isSome_iff_exists] using h.symm
      have hcolon (cs : List Char) : Json.EndsNumber (':' :: cs) := by
        rintro c ⟨⟩
        decide
      have hbracket : Json.EndsNumber [']'] := by
        rintro c ⟨⟩
        decide
      have hlist : (("[" ++ (toString line ++ ":" ++ toString column) ++ "]").toList).drop 1 =
          (toString line).toList ++ ':' :: ((toString column).toList ++ [']']) := by
        simp
      rw [hcolumn]
      dsimp only
      rw [hlist, Json.readInt_toString line (hcolon _)]
      dsimp only
      rw [Json.readInt_toString column hbracket]

theorem entryOfWords?_wordsOf {e : Entry} (h : IsListable e) :
    entryOfWords? e.resolved e.depth (wordsOf e) = some e := by
  have hplace := placeOf_location h.location
  have htype := valueOf_orDash "type=" h.type
  have hparent := valueOf_orDash "parent=" h.parent
  have hinput := valueOf_orDash "input=" h.input
  unfold wordsOf
  cases hname : e.name with
  | none =>
      simp only [Option.toList_none, List.nil_append, entryOfWords?, hplace, htype, hparent, hinput]
      rw [← hname]
  | some name =>
      simp only [Option.toList_some, List.cons_append, List.nil_append, entryOfWords?, hplace,
        htype, hparent, hinput]
      rw [← hname]

/-- The words of a line begin where its indentation ends. -/
theorem exists_toList_wordsOf {e : Entry} (h : IsListable e) :
    ∃ c cs, (String.intercalate " " (wordsOf e)).toList = c :: cs ∧ c ≠ ' ' := by
  obtain ⟨c, cs, hkind⟩ := List.exists_cons_of_ne_nil
    (String.toList_eq_nil_iff.not.mpr h.kind.ne_empty)
  have hc : c ≠ ' ' := by
    rintro rfl
    exact h.kind.noBlank (hkind ▸ List.mem_cons_self)
  have hwords : (String.intercalate " " (wordsOf e)).toList =
      e.kind.toList ++ (' ' :: (String.intercalate " " (wordsOf e).tail).toList) := by
    rw [wordsOf, String.intercalate_cons_of_ne_nil (by simp)]
    simp
  exact ⟨c, _, by rw [hwords, hkind, List.cons_append], hc⟩

/-- A mark, the indentation and the words make a line. -/
theorem toList_entryLine {e : Entry} (h : IsListable e) :
    (entryLine false e).toList = (if e.resolved then ' ' else '!') ::
      (List.replicate (2 * (e.depth + 1)).toNat ' ' ++
        (String.intercalate " " (wordsOf e)).toList) := by
  have hmark : (if e.resolved then " " else paint false .red "!").toList =
      [if e.resolved then ' ' else '!'] := by
    cases e.resolved <;> rfl
  rw [entryLine_eq, entryMiddle, ← intercalate_wordsOf h]
  simp only [String.toList_append, hmark, String.toList_ofList, List.append_assoc,
    List.cons_append]
  rfl

theorem entryOf?_entryLine {e : Entry} (h : IsListable e) :
    entryOf? (entryLine false e) = some e := by
  obtain ⟨c, cs, hstart, hc⟩ := exists_toList_wordsOf h
  have hwords : partsAt ' ' (String.intercalate " " (wordsOf e)) = wordsOf e :=
    partsAt_intercalate rfl (List.cons_ne_nil _ _) (lacks_blank_wordsOf h)
  have hindent : ∀ d ∈ List.replicate (2 * (e.depth + 1)).toNat ' ', decide (d = ' ') = true :=
    fun d hd => decide_eq_true (List.eq_of_mem_replicate hd)
  have hdepth : (((2 * (e.depth + 1)).toNat : Int) / 2 - 1) = e.depth := by
    have hdepth := h.depth
    omega
  have hmark : decide ((if e.resolved then ' ' else '!') = ' ') = e.resolved := by
    cases e.resolved <;> rfl
  have hline := toList_entryLine h
  rw [hstart] at hline
  unfold entryOf?
  rw [hline]
  dsimp only
  rw [List.takeWhile_append_of_pos hindent, List.dropWhile_append_of_pos hindent,
    List.takeWhile_cons_of_neg (by simpa using hc), List.dropWhile_cons_of_neg (by simpa using hc),
    List.append_nil, List.length_replicate, hdepth, hmark, ← hstart, String.ofList_toList, hwords]
  exact entryOfWords?_wordsOf h

/-! ## Sections -/

/-- The lines of sections, with an empty line between one section and the next. -/
def linesOf (sections : List (List String)) : List String := List.intercalate [""] sections

theorem intercalate_append {separator : String} {left right : List String} (hleft : left ≠ [])
    (hright : right ≠ []) :
    String.intercalate separator (left ++ right) =
      String.intercalate separator left ++ separator ++ String.intercalate separator right := by
  induction left with
  | nil => exact absurd rfl hleft
  | cons text left ih =>
      by_cases hempty : left = []
      · rw [hempty, String.intercalate_singleton, List.singleton_append,
          String.intercalate_cons_of_ne_nil hright]
      · rw [List.cons_append, String.intercalate_cons_of_ne_nil (by simp [hempty]), ih hempty,
          String.intercalate_cons_of_ne_nil hempty]
        simp only [String.append_assoc]

theorem linesOf_cons {lines : List String} {sections : List (List String)} (hne : sections ≠ []) :
    linesOf (lines :: sections) = lines ++ "" :: linesOf sections := by
  obtain ⟨first, others, rfl⟩ := List.exists_cons_of_ne_nil hne
  rw [linesOf, List.intercalate_cons_cons, List.append_assoc]
  rfl

theorem linesOf_ne_nil {sections : List (List String)} (hne : sections ≠ [])
    (h : ∀ lines ∈ sections, lines ≠ []) : linesOf sections ≠ [] := by
  obtain ⟨first, others, rfl⟩ := List.exists_cons_of_ne_nil hne
  by_cases hempty : others = []
  · rw [hempty, linesOf, List.intercalate_singleton]
    exact h first List.mem_cons_self
  · rw [linesOf_cons hempty]
    simp

theorem forall_mem_linesOf {P : String → Prop} {sections : List (List String)} (hempty : P "")
    (h : ∀ lines ∈ sections, ∀ line ∈ lines, P line) : ∀ line ∈ linesOf sections, P line := by
  induction sections with
  | nil => exact List.forall_mem_nil _
  | cons lines sections ih =>
      obtain ⟨hlines, hsections⟩ := List.forall_mem_cons.mp h
      by_cases hlast : sections = []
      · rw [hlast, linesOf, List.intercalate_singleton]
        exact hlines
      · rw [linesOf_cons hlast, List.forall_mem_append, List.forall_mem_cons]
        exact ⟨hlines, hempty, ih hsections⟩

/-- An empty line makes two line ends between sections. -/
theorem intercalate_linesOf {sections : List (List String)} (h : ∀ lines ∈ sections, lines ≠ []) :
    String.intercalate "\n\n" (sections.map (String.intercalate "\n")) =
      String.intercalate "\n" (linesOf sections) := by
  have hbreak : "\n\n" = "\n" ++ "\n" := rfl
  induction sections with
  | nil => rfl
  | cons lines sections ih =>
      obtain ⟨hlines, hsections⟩ := List.forall_mem_cons.mp h
      by_cases hlast : sections = []
      · rw [hlast, List.map_singleton, String.intercalate_singleton, linesOf,
          List.intercalate_singleton]
      · have hrest := linesOf_ne_nil hlast hsections
        rw [List.map_cons, String.intercalate_cons_of_ne_nil (by simpa using hlast), ih hsections,
          linesOf_cons hlast, intercalate_append hlines (List.cons_ne_nil _ _),
          String.intercalate_cons_of_ne_nil hrest, hbreak, String.empty_append]
        simp only [String.append_assoc]

/-- The sections of a listing. -/
def sectionsOf (r : TraceResult) : List (List String) :=
  r.documents.map (documentLines false) ++ [summaryHead r ++ [summaryEnd false r]]

theorem listing_eq {r : TraceResult} (h : ∀ d ∈ r.documents, d.path ≠ "") :
    listing false false r =
      String.intercalate "\n\n" ((sectionsOf r).map (String.intercalate "\n")) := by
  have hshown : ∀ text ∈ r.documents.map (documentSection false) ++ [summary false r],
      (!text.isEmpty) = true := by
    refine List.forall_mem_append.mpr
      ⟨List.forall_mem_map.mpr fun d hd => ?_, fun text hsummary => ?_⟩
    · simp [isEmpty_documentSection, String.isEmpty_eq_false_iff.mpr (h d hd)]
    · rw [List.mem_singleton.mp hsummary, isEmpty_summary]
      rfl
  unfold listing
  rw [if_neg (by decide)]
  dsimp only
  rw [List.filter_eq_self.mpr hshown, sectionsOf, List.map_append,
    List.map_map]
  rfl

theorem IsListable.lacks_texts {e : Entry} (h : IsListable e) : ∀ text ∈ e.texts, Lacks '\n' text :=
  Entry.forall_texts_iff.mpr ⟨h.kind.noLineEnd, fun name hname => (h.name name hname).noLineEnd,
    fun type htype => (h.type type htype).1.noLineEnd,
    fun parent hparent => (h.parent parent hparent).1.noLineEnd,
    fun input hinput => (h.input input hinput).1.noLineEnd⟩

theorem isLine_entryLine {e : Entry} (h : IsListable e) : IsLine (entryLine false e) := by
  constructor
  · intro hempty
    have hline := toList_entryLine h
    rw [hempty] at hline
    cases hline
  · exact lacks_entryLine (by decide) h.lacks_texts

theorem isLine_documentLines {d : DocumentTrace} (hpath : IsLine d.path)
    (h : ∀ e ∈ d.entries, IsListable e) : ∀ line ∈ documentLines false d, IsLine line :=
  List.forall_mem_cons.mpr ⟨hpath, List.forall_mem_map.mpr fun e he => isLine_entryLine (h e he)⟩

theorem isLine_summaryLines {r : TraceResult} (h : ∀ path ∈ r.schemaPaths, Lacks '\n' path) :
    ∀ line ∈ summaryHead r ++ [summaryEnd false r], IsLine line := by
  have hnumber := Lacks.number (c := '\n') (by decide) r.unresolvedCount
  refine List.forall_mem_append.mpr ⟨fun line hline => ⟨?_, ?_⟩, List.forall_mem_singleton.mpr ?_⟩
  · rintro rfl
    simp [summaryHead, eq_comm (a := "")] at hline
  · exact lacks_summaryHead (by decide) h line hline
  · exact ⟨by simp [summaryEnd], .append (by decide) hnumber⟩

theorem isLine_sectionsOf {r : TraceResult} (h : Listable r) :
    ∀ lines ∈ sectionsOf r, lines ≠ [] ∧ ∀ line ∈ lines, IsLine line := by
  refine List.forall_mem_append.mpr
    ⟨List.forall_mem_map.mpr fun d hd => ⟨List.cons_ne_nil _ _, ?_⟩,
      List.forall_mem_singleton.mpr ⟨by simp [summaryHead], isLine_summaryLines h.schema⟩⟩
  exact isLine_documentLines (h.path d hd) (h.entries d hd)

/-! ## Listings -/

theorem documentOf?_documentLines {d : DocumentTrace} (h : ∀ e ∈ d.entries, IsListable e) :
    documentOf? (documentLines false d) = some d := by
  rw [documentLines, documentOf?, mapM_map_of_mem fun e he => entryOf?_entryLine (h e he)]
  rfl

theorem documentsOf?_listing {r : TraceResult} (h : Listable r) :
    documentsOf? (listing false false r) = some r.documents := by
  have hne : sectionsOf r ≠ [] := by simp [sectionsOf]
  have hsome : ∀ lines ∈ sectionsOf r, lines ≠ [] :=
    fun lines hlines => (isLine_sectionsOf h lines hlines).1
  have hlines : ∀ lines ∈ sectionsOf r, ∀ line ∈ lines, IsLine line :=
    fun lines hlines => (isLine_sectionsOf h lines hlines).2
  have hsplit : partsAt '\n' (listing false false r) = linesOf (sectionsOf r) := by
    rw [listing_eq fun d hd => (h.path d hd).ne_empty, intercalate_linesOf hsome]
    refine partsAt_intercalate rfl (linesOf_ne_nil hne hsome) ?_
    exact forall_mem_linesOf (by decide) fun lines hmem line hline =>
      (hlines lines hmem line hline).noLineEnd
  have hsections : (linesOf (sectionsOf r)).splitOn "" = sectionsOf r :=
    List.splitOn_intercalate ""
      (fun lines hmem hempty => (hlines lines hmem "" hempty).ne_empty rfl) hne
  rw [documentsOf?, hsplit, hsections, sectionsOf, List.dropLast_concat]
  exact mapM_map_of_mem fun d hd => documentOf?_documentLines (h.entries d hd)

/-- Listings without colours tell all documents, entry by entry. -/
theorem listing_tells_documents {a b : TraceResult} (ha : Listable a) (hb : Listable b)
    (h : listing false false a = listing false false b) : a.documents = b.documents := by
  have hread := documentsOf?_listing ha
  rw [h, documentsOf?_listing hb] at hread
  exact (Option.some.inj hread).symm

/-- A document whose path could be the line of an entry, and one without entries. -/
def almanac (schemaPaths : List String) : TraceResult where
  schemaPaths := schemaPaths
  documents :=
    [⟨"  field [1:1] type=- parent=- input=-",
      [⟨"field", some "[1:1]", 0, some 2, some 3, some "[Int!]", some "Query", none, true⟩,
        ⟨"name", none, 1, none, none, none, none, none, false⟩]⟩,
      ⟨"  Trace summary", []⟩]

/-- The schema paths are not told apart, but the documents are. -/
theorem almanac_listing_tells_documents :
    Listable (almanac ["a, b"]) ∧ Listable (almanac ["a", "b"]) ∧
      almanac ["a, b"] ≠ almanac ["a", "b"] ∧
      listing false false (almanac ["a, b"]) = listing false false (almanac ["a", "b"]) ∧
      (almanac ["a, b"]).documents = (almanac ["a", "b"]).documents := by
  have hleft : Listable (almanac ["a, b"]) := by decide +kernel
  have hright : Listable (almanac ["a", "b"]) := by decide +kernel
  have hsame : listing false false (almanac ["a, b"]) = listing false false (almanac ["a", "b"]) := by
    decide +kernel
  exact ⟨hleft, hright, by decide, hsame, listing_tells_documents hleft hright hsame⟩

end TypeTrace.Report.Listing
