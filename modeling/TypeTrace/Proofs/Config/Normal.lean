import Mathlib.Data.List.DropRight
import TypeTrace.Proofs.Config.Refusal
import TypeTrace.Proofs.Config.Setting

/-! # Settings in normal form

Whatever the file of a configuration says, the settings that are read from it are in normal form: their
texts have no blank space around them, and each of them has passed its own check. Settings in normal
form are read back unchanged from the mapping that says what they say.
-/

namespace TypeTrace

/-! ## Texts -/

namespace Text

/-- A text that is not empty and has no blank space at either end. -/
structure Trimmed (text : String) : Prop where
  nonempty : text ≠ ""
  first : ∀ c ∈ text.toList.head?, isBlank c = false
  last : ∀ c ∈ text.toList.getLast?, isBlank c = false

theorem trimmed_iff {text : String} : Trimmed text ↔ text ≠ "" ∧
    text.toList.head?.all (!isBlank ·) = true ∧ text.toList.getLast?.all (!isBlank ·) = true := by
  simp only [Option.all_eq_true, Bool.not_eq_true']
  exact ⟨fun h => ⟨h.nonempty, h.first, h.last⟩, fun h => ⟨h.1, h.2.1, h.2.2⟩⟩

instance : DecidablePred Trimmed := fun _ => decidable_of_iff _ trimmed_iff.symm

theorem stripList_eq (cs : List Char) :
    stripList cs = (cs.dropWhile isBlank).rdropWhile isBlank := rfl

theorem trimmed_strip {text : String} (h : strip text ≠ "") : Trimmed (strip text) := by
  have hchars : (strip text).toList = (text.toList.dropWhile isBlank).rdropWhile isBlank := by
    rw [strip, String.toList_ofList, stripList_eq]
  have hne : (text.toList.dropWhile isBlank).rdropWhile isBlank ≠ [] := by
    rw [← hchars]
    simpa using h
  refine ⟨h, ?_, ?_⟩
  · rw [hchars]
    intro c hc
    -- What is left at the end begins where the blank space at the beginning stops.
    obtain ⟨ending, hending⟩ := List.rdropWhile_prefix isBlank (text.toList.dropWhile isBlank)
    have hhead : c ∈ (text.toList.dropWhile isBlank).head? := by
      rw [← hending, List.head?_append_of_ne_nil _ hne]
      exact hc
    have hfirst := List.head?_dropWhile_not isBlank text.toList
    rw [Option.mem_def.mp hhead] at hfirst
    exact hfirst
  · rw [hchars]
    intro c hc
    have hlast := List.rdropWhile_last_not isBlank _ hne
    rw [List.getLast?_eq_some_getLast hne] at hc
    cases hc
    simpa using hlast

theorem Trimmed.strip_eq {text : String} (h : Trimmed text) : strip text = text := by
  have hbegin : text.toList.dropWhile isBlank = text.toList := by
    cases hchars : text.toList with
    | nil => rfl
    | cons c cs =>
        have hc := h.first c (by rw [hchars]; rfl)
        rw [List.dropWhile_cons_of_neg (by simp [hc])]
  have hend : text.toList.rdropWhile isBlank = text.toList := by
    rw [List.rdropWhile_eq_self_iff]
    intro hne
    have hc := h.last _ (List.getLast?_eq_some_getLast hne)
    simp [hc]
  rw [strip, stripList_eq, hbegin, hend, String.ofList_toList]

end Text

namespace Config

open Noting

variable {entries : List (Yaml.Value × Yaml.Value)} {config : Config}

theorem trimmed_of_mem_clean {texts : List String} {text : String} (h : text ∈ clean texts) :
    Text.Trimmed text := by
  obtain ⟨hmem, hne⟩ := List.mem_filter.mp h
  obtain ⟨given, -, rfl⟩ := List.mem_map.mp hmem
  exact Text.trimmed_strip (of_decide_eq_true hne)

theorem clean_eq {texts : List String} (h : ∀ text ∈ texts, Text.Trimmed text) :
    clean texts = texts := by
  have hstrip : texts.map Text.strip = texts := by
    conv_rhs => rw [← List.map_id texts]
    exact List.map_congr_left fun text htext => (h text htext).strip_eq
  rw [clean, hstrip, List.filter_eq_self]
  exact fun text htext => decide_eq_true (h text htext).nonempty

/-! ## What settings are read -/

/-- Settings in normal form. -/
structure Normal (config : Config) : Prop where
  schema : config.schemaPaths ≠ []
  schemaTrimmed : ∀ text ∈ config.schemaPaths, Text.Trimmed text
  patternsTrimmed : ∀ text ∈ config.patterns, Text.Trimmed text
  relative : ∀ text ∈ config.patterns, (Path.ofText text).isAbsolute = false
  kinds : config.kinds ⊆ tracedKinds
  size : 1 ≤ config.maxFileKb

theorem normal_standard : Normal standard where
  schema := by decide
  schemaTrimmed := by decide +kernel
  patternsTrimmed := by decide +kernel
  relative := by decide +kernel
  kinds := by decide
  size := by decide

theorem trimmed_of_listSetting {key : String} {value : Yaml.Value} {texts : List String}
    (h : listSetting key value = .ok texts) : ∀ text ∈ texts, Text.Trimmed text := by
  unfold listSetting at h
  split at h
  · cases h
    exact fun text => trimmed_of_mem_clean
  · cases h

theorem of_schemaSetting {value : Yaml.Value} {paths : List String}
    (h : schemaSetting value = .ok paths) :
    paths ≠ [] ∧ ∀ text ∈ paths, Text.Trimmed text := by
  obtain ⟨listed, hlisted, h⟩ := exists_of_bind_eq_ok h
  split at h
  · cases h
  · next hsome =>
    cases h
    exact ⟨fun hnone => hsome (List.isEmpty_iff.mpr hnone), trimmed_of_listSetting hlisted⟩

theorem of_kindsSetting {value : Yaml.Value} {kinds : List String}
    (h : kindsSetting value = .ok kinds) : kinds ⊆ tracedKinds := by
  obtain ⟨listed, -, h⟩ := exists_of_bind_eq_ok h
  dsimp only at h
  split at h
  · next hunknown =>
    cases h
    intro kind hkind
    by_contra hmissing
    have hmem : kind ∈ kinds.filter fun kind => !tracedKinds.contains kind := by
      simpa using ⟨hkind, hmissing⟩
    rw [List.isEmpty_iff.mp hunknown] at hmem
    cases hmem
  · cases h

theorem of_sizeSetting {value : Yaml.Value} {size : Int} (h : sizeSetting value = .ok size) :
    1 ≤ size := by
  unfold sizeSetting at h
  split at h
  · split at h
    · cases h
      assumption
    · cases h
  · cases h

theorem of_patternsSetting {value : Yaml.Value} {patterns : List String}
    (h : patternsSetting value = .ok patterns) :
    (∀ text ∈ patterns, Text.Trimmed text) ∧
      ∀ text ∈ patterns, (Path.ofText text).isAbsolute = false := by
  obtain ⟨listed, hlisted, h⟩ := exists_of_bind_eq_ok h
  dsimp only at h
  split at h
  · next hrelative =>
    cases h
    refine ⟨trimmed_of_listSetting hlisted, fun text htext => ?_⟩
    by_contra habsolute
    have hmem : text ∈ patterns.filter fun pattern => (Path.ofText pattern).isAbsolute := by
      simpa using ⟨htext, Bool.eq_true_of_not_eq_false habsolute⟩
    rw [List.isEmpty_iff.mp hrelative] at hmem
    cases hmem
  · cases h

/-- What holds of all that a reader takes, and of what holds by default, holds of a setting. -/
theorem of_elim {α : Type} {P : α → Prop} {value : Option Yaml.Value}
    {read : Yaml.Value → Except Fault α} {standard a : α}
    (h : value.elim (.ok standard) read = .ok a)
    (hread : ∀ value a, read value = .ok a → P a) (hstandard : P standard) : P a := by
  cases value with
  | none =>
      cases h
      exact hstandard
  | some value => exact hread _ _ h

theorem normal_of_ofEntries (h : ofEntries entries = .ok config) : Normal config := by
  obtain ⟨-, hreads⟩ := ofEntries_eq_ok.mp h
  have hschema := of_elim (hreads .schema) (fun _ _ => of_schemaSetting)
    ⟨normal_standard.schema, normal_standard.schemaTrimmed⟩
  have hpatterns := of_elim (hreads .patterns) (fun _ _ => of_patternsSetting)
    ⟨normal_standard.patternsTrimmed, normal_standard.relative⟩
  exact {
    schema := hschema.1
    schemaTrimmed := hschema.2
    patternsTrimmed := hpatterns.1
    relative := hpatterns.2
    kinds := of_elim (P := (· ⊆ tracedKinds)) (hreads .kinds) (fun _ _ => of_kindsSetting)
      normal_standard.kinds
    size := of_elim (P := (1 ≤ ·)) (hreads .size) (fun _ _ => of_sizeSetting)
      normal_standard.size }

theorem normal_of_readFile {files : FileTree} {path : Path} (h : readFile files path = .ok config) :
    Normal config := by
  unfold readFile ofText at h
  split at h
  · cases h
  · cases h
  · cases h
  · split at h
    · cases h
    · cases h
    · unfold ofValue at h
      split at h
      · exact normal_of_ofEntries h
      · exact normal_of_ofEntries h
      · cases h

/-- Settings that are loaded are in normal form. -/
theorem load_returns_normal (files : FileTree) (root : Path) (given : Option Path) :
    (load files root given).Returns Normal := by
  unfold load
  refine Returns.after fun path => ?_
  by_cases hthere : files.pathExists path
  · rw [if_pos hthere]
    exact Returns.lift fun config => normal_of_readFile
  · rw [if_neg hthere]
    split
    · exact Returns.throw _
    · exact Returns.after fun _ => Returns.pure normal_standard

/-! ## Reading back -/

/-- A list of texts as a value. -/
def listValue (texts : List String) : Yaml.Value := .list (texts.map .text)

/-- The mapping that says what settings say. -/
def asMapping (config : Config) : List (Yaml.Value × Yaml.Value) :=
  [(.text "schema", listValue config.schemaPaths), (.text "documents", listValue config.patterns),
    (.text "kinds", listValue config.kinds), (.text "max_file_kb", .int config.maxFileKb),
    (.text "fail_on_unresolved", .bool config.failOnUnresolved)]

theorem listSetting_listValue {texts : List String} (h : ∀ text ∈ texts, Text.Trimmed text)
    (key : String) : listSetting key (listValue texts) = .ok texts := by
  have htexts : textsOf? (listValue texts) = some texts := by
    rw [listValue, textsOf?]
    induction texts with
    | nil => rfl
    | cons text texts ih =>
        rw [List.map_cons, List.mapM_cons, ih fun text htext => h text (List.mem_cons_of_mem _ htext)]
        rfl
  rw [listSetting, htexts]
  dsimp only
  rw [clean_eq h]

theorem Normal.schemaSetting_eq (h : Normal config) :
    schemaSetting (listValue config.schemaPaths) = .ok config.schemaPaths := by
  have hlist := listSetting_listValue h.schemaTrimmed "schema"
  have hsome : config.schemaPaths.isEmpty = false := by
    simpa using h.schema
  change (listSetting "schema" (listValue config.schemaPaths) >>= fun paths =>
    if paths.isEmpty then .error .noSchema else .ok paths) = _
  rw [hlist]
  exact if_neg (by simp [hsome])

theorem Normal.kindsSetting_eq (h : Normal config) :
    kindsSetting (listValue config.kinds) = .ok config.kinds := by
  have htrimmed : ∀ kind ∈ tracedKinds, Text.Trimmed kind := by decide +kernel
  have hlist := listSetting_listValue (fun kind hkind => htrimmed kind (h.kinds hkind)) "kinds"
  have hnone : config.kinds.filter (fun kind => !tracedKinds.contains kind) = [] := by
    rw [List.filter_eq_nil_iff]
    intro kind hkind
    simpa using h.kinds hkind
  rw [kindsSetting, hlist]
  change (if (config.kinds.filter fun kind => !tracedKinds.contains kind).isEmpty then _ else _) = _
  rw [hnone]
  rfl

theorem Normal.patternsSetting_eq (h : Normal config) :
    patternsSetting (listValue config.patterns) = .ok config.patterns := by
  have hlist := listSetting_listValue h.patternsTrimmed "documents"
  have hnone : config.patterns.filter (fun pattern => (Path.ofText pattern).isAbsolute) = [] := by
    rw [List.filter_eq_nil_iff]
    intro pattern hpattern
    simp [h.relative pattern hpattern]
  rw [patternsSetting, hlist]
  change (if (config.patterns.filter fun pattern => (Path.ofText pattern).isAbsolute).isEmpty
    then _ else _) = _
  rw [hnone]
  rfl

theorem Normal.sizeSetting_eq (h : Normal config) :
    sizeSetting (.int config.maxFileKb) = .ok config.maxFileKb :=
  if_pos h.size

theorem ofEntries_asMapping (h : Normal config) : ofEntries config.asMapping = .ok config := by
  refine ofEntries_eq_ok.mpr ⟨rfl, fun s => ?_⟩
  cases s with
  | schema => exact h.schemaSetting_eq
  | patterns => exact h.patternsSetting_eq
  | kinds => exact h.kindsSetting_eq
  | size => exact h.sizeSetting_eq
  | flag => rfl

/-- Settings that are loaded are in normal form, and the mapping that says what they say settles them
again. -/
theorem loaded_settings_are_normal {files : FileTree} {root : Path} {given : Option Path}
    {start after : List Notice} (h : load files root given start = .ok config after) :
    Normal config ∧ ∀ path, ofValue path (.mapping config.asMapping) = .ok config := by
  have hnormal := load_returns_normal files root given start config after h
  exact ⟨hnormal, fun path => ofEntries_asMapping hnormal⟩

/-- Settings with blank space around texts, and with an item that is nothing else. -/
def paddedSettings : String :=
  "schema: \" a b.graphql\\t\"\ndocuments: [' asks/*.gql ', '  ', more]\nkinds:\n"

theorem loaded_settings_are_normal_in_notebook :
    ∃ config after, load (notebook paddedSettings) (Path.ofText ".") none [] = .ok config after ∧
      config = ⟨["a b.graphql"], ["asks/*.gql", "more"], [], 512, false⟩ ∧ Normal config ∧
      ofValue (Path.ofText "again.yaml") (.mapping config.asMapping) = .ok config := by
  have hload : (match load (notebook paddedSettings) (Path.ofText ".") none [] with
      | .ok config _ => config == ⟨["a b.graphql"], ["asks/*.gql", "more"], [], 512, false⟩
      | .error .. => false) = true := by decide +kernel
  split at hload
  · next config after heq =>
    obtain ⟨hnormal, hback⟩ := loaded_settings_are_normal heq
    exact ⟨config, after, heq, beq_iff_eq.mp hload, hnormal, hback _⟩
  · cases hload

end Config

end TypeTrace
