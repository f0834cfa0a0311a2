import Mathlib.Data.List.Sort
import TypeTrace.CommandLine.Run
import TypeTrace.Proofs.Files.Places
import TypeTrace.Proofs.Notice
import TypeTrace.Proofs.Results

/-! # Mappings that settle nothing

A mapping in the file of a configuration either settles what a run needs or is refused as a
configuration, whatever its keys and values are. The refusal lists the keys that mean nothing, and
that goes wrong where they cannot be put in order or one of them cannot be written.
-/

namespace TypeTrace.Config

/-- A fault of a configuration that is reported as such. -/
def Fault.IsReported (fault : Fault) : Prop :=
  CommandLine.report? (.config fault) = some (2, "Configuration error: ")

theorem not_isReported {fault : Fault} (h : CommandLine.report? (.config fault) = none) :
    ¬ fault.IsReported := by
  rw [Fault.IsReported, h]
  simp

/-! ## Values -/

/-- If a value is not taken, then with a fault that is reported. -/
def Refusing {α : Type} (x : Except Fault α) : Prop := ∀ fault, x = .error fault → fault.IsReported

section

variable {α β : Type} {x : Except Fault α} {value : Yaml.Value}

theorem refusing_ok (a : α) : Refusing (.ok a) := by
  intro fault h
  cases h

theorem refusing_error {fault : Fault} (h : fault.IsReported) :
    Refusing (.error fault : Except Fault α) := by
  intro other heq
  cases heq
  exact h

theorem Refusing.bind {next : α → Except Fault β} (h : Refusing x) (hnext : ∀ a, Refusing (next a)) :
    Refusing (x >>= next) := by
  cases x with
  | error fault => exact refusing_error (h fault rfl)
  | ok a => exact hnext a

theorem Refusing.ite {condition : Prop} [Decidable condition] {y : Except Fault α}
    (hx : Refusing x) (hy : Refusing y) : Refusing (if condition then x else y) := by
  split
  · exact hx
  · exact hy

theorem refusing_listSetting (key : String) (value : Yaml.Value) :
    Refusing (listSetting key value) := by
  unfold listSetting
  split
  · exact refusing_ok _
  · exact refusing_error rfl

theorem refusing_schemaSetting (value : Yaml.Value) : Refusing (schemaSetting value) :=
  (refusing_listSetting _ _).bind fun _ => .ite (refusing_error rfl) (refusing_ok _)

theorem refusing_kindsSetting (value : Yaml.Value) : Refusing (kindsSetting value) :=
  (refusing_listSetting _ _).bind fun _ => .ite (refusing_ok _) (refusing_error rfl)

theorem refusing_sizeSetting (value : Yaml.Value) : Refusing (sizeSetting value) := by
  unfold sizeSetting
  split
  · exact .ite (refusing_ok _) (refusing_error rfl)
  · exact refusing_error rfl

theorem refusing_flagSetting (value : Yaml.Value) : Refusing (flagSetting value) := by
  unfold flagSetting
  split
  · exact refusing_ok _
  · exact refusing_error rfl

theorem refusing_patternsSetting (value : Yaml.Value) : Refusing (patternsSetting value) :=
  (refusing_listSetting _ _).bind fun _ => .ite (refusing_ok _) (refusing_error rfl)

theorem refusing_setting {read : Yaml.Value → Except Fault α} (hread : ∀ value, Refusing (read value))
    (entries : List (Yaml.Value × Yaml.Value)) (key : String) (standard : α) :
    Refusing (setting entries key read standard) := by
  unfold setting
  split
  · exact hread _
  · exact refusing_ok _

end

/-! ## Keys -/

/-- The keys of a mapping that are no names of settings. -/
def unknownKeys (entries : List (Yaml.Value × Yaml.Value)) : List Yaml.Value :=
  (entries.map (·.1)).filter fun key => !isKnown key

/-- Keys that a message can list: they can be put in order, and each of them can be written. -/
structure Listable (keys : List Yaml.Value) : Prop where
  ordered : ∀ v ∈ keys, ∀ w ∈ keys, v.orderClass? = w.orderClass?
  writable : ∀ v ∈ keys, v.isWritable = true

instance (keys : List Yaml.Value) : Decidable (Listable keys) :=
  decidable_of_iff ((∀ v ∈ keys, ∀ w ∈ keys, v.orderClass? = w.orderClass?) ∧
    ∀ v ∈ keys, v.isWritable = true) ⟨fun h => ⟨h.1, h.2⟩, fun h => ⟨h.ordered, h.writable⟩⟩

theorem sorted?_eq_some {keys sorted : List Yaml.Value}
    (h : Yaml.Value.sorted? keys = some sorted) :
    sorted.Perm keys ∧ ∀ v ∈ keys, ∀ w ∈ keys, v.orderClass? = w.orderClass? := by
  unfold Yaml.Value.sorted? at h
  split at h
  · cases h
    exact ⟨.nil, fun v hv => absurd hv List.not_mem_nil⟩
  · next first others =>
    split at h
    · next hsame =>
      cases h
      refine ⟨List.mergeSort_perm _ _, ?_⟩
      have hclass : ∀ v ∈ first :: others, v.orderClass? = first.orderClass? :=
        List.forall_mem_cons.mpr ⟨rfl, fun v hv => by simpa using List.all_eq_true.mp hsame v hv⟩
      exact fun v hv w hw => (hclass v hv).trans (hclass w hw).symm
    · cases h

theorem exists_sorted? {keys : List Yaml.Value}
    (h : ∀ v ∈ keys, ∀ w ∈ keys, v.orderClass? = w.orderClass?) :
    ∃ sorted, Yaml.Value.sorted? keys = some sorted := by
  unfold Yaml.Value.sorted?
  split
  · exact ⟨[], rfl⟩
  · next first others =>
    rw [if_pos]
    · exact ⟨_, rfl⟩
    · rw [List.all_eq_true]
      intro v hv
      simpa using h v (List.mem_cons_of_mem _ hv) first List.mem_cons_self

/-- What becomes of a mapping with the given unknown keys. It settles all that a run needs, or is
refused, and if there are unknown keys, then because of them; or the message that would list them
cannot be made. -/
inductive Judged {α : Type} (unknown : List Yaml.Value) : Except Fault α → Prop where
  | settled (a : α) (hunknown : unknown = []) : Judged unknown (.ok a)
  | refused (fault : Fault) (hlistable : Listable unknown) (hfault : fault.IsReported)
      (hkeys : unknown ≠ [] → ∃ keys, keys.Perm unknown ∧ fault = .unknownKeys keys) :
      Judged unknown (.error fault)
  | unlisted (fault : Fault) (hlistable : ¬ Listable unknown) (hfault : ¬ fault.IsReported) :
      Judged unknown (.error fault)

theorem judged_checkKeys (entries : List (Yaml.Value × Yaml.Value)) :
    Judged (unknownKeys entries) (checkKeys entries) := by
  unfold checkKeys
  extract_lets unknown
  change Judged unknown _
  split
  · next hempty => exact .settled () (List.isEmpty_iff.mp hempty)
  · split
    · next sorted hsorted =>
      -- What is checked is said of the sorted keys, and they are the unknown ones in another order.
      obtain ⟨hperm, hordered⟩ := sorted?_eq_some hsorted
      split
      · next hwritable =>
        refine .refused _ ⟨hordered, fun v hv => ?_⟩ rfl fun _ => ⟨sorted, hperm, rfl⟩
        exact List.all_eq_true.mp hwritable v (hperm.mem_iff.mpr hv)
      · next hwritable =>
        refine .unlisted _ (fun hlistable => hwritable ?_) (not_isReported rfl)
        exact List.all_eq_true.mpr fun v hv => hlistable.writable v (hperm.mem_iff.mp hv)
    · next hsorted =>
      refine .unlisted _ (fun hlistable => ?_) (not_isReported rfl)
      obtain ⟨sorted, hsome⟩ := exists_sorted? hlistable.ordered
      rw [hsorted] at hsome
      cases hsome

theorem Judged.of_refusing {α : Type} {x : Except Fault α} (h : Refusing x) : Judged [] x := by
  cases x with
  | ok a => exact .settled a rfl
  | error fault =>
    have hlistable : Listable [] := ⟨by simp, by simp⟩
    exact .refused fault hlistable (h fault rfl) fun hunknown => absurd rfl hunknown

theorem Judged.bind {α β : Type} {unknown : List Yaml.Value} {x : Except Fault α}
    {next : α → Except Fault β} (h : Judged unknown x) (hnext : ∀ a, Refusing (next a)) :
    Judged unknown (x >>= next) := by
  cases h with
  | settled a hunknown =>
    subst hunknown
    exact .of_refusing (hnext a)
  | refused fault hlistable hfault hkeys => exact .refused fault hlistable hfault hkeys
  | unlisted fault hlistable hfault => exact .unlisted fault hlistable hfault

theorem judged_ofEntries (entries : List (Yaml.Value × Yaml.Value)) :
    Judged (unknownKeys entries) (ofEntries entries) := by
  refine (judged_checkKeys entries).bind fun _ => ?_
  refine (refusing_setting refusing_schemaSetting entries _ _).bind fun schemaPaths => ?_
  refine (refusing_setting refusing_kindsSetting entries _ _).bind fun kinds => ?_
  refine (refusing_setting refusing_sizeSetting entries _ _).bind fun maxFileKb => ?_
  refine (refusing_setting refusing_flagSetting entries _ _).bind fun failOnUnresolved => ?_
  refine (refusing_setting refusing_patternsSetting entries _ _).bind fun patterns => ?_
  exact refusing_ok _

theorem ofEntries_of_unordered {entries : List (Yaml.Value × Yaml.Value)}
    (h : Yaml.Value.sorted? (unknownKeys entries) = none) :
    ofEntries entries = .error .unorderedKeys := by
  have hcheck : checkKeys entries = .error .unorderedKeys := by
    unfold checkKeys
    extract_lets unknown
    have hunknown : Yaml.Value.sorted? unknown = none := h
    split
    · next hempty =>
      rw [List.isEmpty_iff.mp hempty] at hunknown
      cases hunknown
    · rw [hunknown]
  rw [ofEntries, hcheck]
  rfl

/-! ## Files -/

section

variable {files : FileTree} {root path : Path} {given : Option Path} {text : String}
  {entries : List (Yaml.Value × Yaml.Value)}

theorem answers_load (hpath : filePath files root given = .ok path)
    (h : files.readText path = .ok text) : (load files root given).Answers (ofText path text) := by
  have hread : readFile files path = ofText path text := by rw [readFile, h]
  rw [← hread]
  unfold load
  rw [hpath]
  change Noting.Answers (if files.pathExists path then _ else _) _
  rw [if_pos (FileTree.pathExists_of_readText h)]
  exact Noting.Answers.lift_id _

theorem ofText_of_mapping (path : Path)
    (h : Yaml.Value.ofText text = .ok (.mapping entries)) : ofText path text = ofEntries entries := by
  rw [ofText, h]
  rfl

/-- A mapping in the file of a configuration settles what a run needs or is refused, whatever the
types of its keys and values are, unless the keys that are no names of settings cannot be listed. -/
theorem mapping_is_settled_or_refused (hpath : filePath files root given = .ok path)
    (hread : files.readText path = .ok text)
    (hmapping : Yaml.Value.ofText text = .ok (.mapping entries)) :
    ∃ answer, (load files root given).Answers answer ∧ Judged (unknownKeys entries) answer := by
  refine ⟨ofEntries entries, ?_, judged_ofEntries entries⟩
  rw [← ofText_of_mapping _ hmapping]
  exact answers_load hpath hread

end

/-- The entries of the mapping that a text is. -/
def entriesOf? (text : String) : Option (List (Yaml.Value × Yaml.Value)) :=
  match Yaml.Value.ofText text with
  | .ok (.mapping entries) => some entries
  | _ => none

theorem ofText_of_entriesOf? {text : String} {entries : List (Yaml.Value × Yaml.Value)}
    (h : entriesOf? text = some entries) : Yaml.Value.ofText text = .ok (.mapping entries) := by
  unfold entriesOf? at h
  split at h
  · next heq =>
    cases h
    exact heq
  · cases h

/-- A workspace with nothing but a configuration. -/
def notebook (config : String) : FileTree where
  entries :=
    [(["notebook"], .directory),
     (["notebook", "gqlcontext.yaml"], .file config.toUTF8.toList)]
  current := ["notebook"]

def notebookPath : Path := ⟨.root, ["notebook", "gqlcontext.yaml"]⟩

/-- Two keys that are whole numbers are listed. -/
theorem mapping_is_settled_or_refused_in_notebook :
    ∃ text entries keys notices,
      filePath (notebook text) (Path.ofText ".") none = .ok notebookPath ∧
      (notebook text).readText notebookPath = .ok text ∧
      Yaml.Value.ofText text = .ok (.mapping entries) ∧
      load (notebook text) (Path.ofText ".") none [] = .error (.unknownKeys keys) notices ∧
      (keys.map Yaml.Value.shown).Perm ["2", "1"] := by
  let text := "schema: 3\n2: x\n1: y\n"
  have hpath : filePath (notebook text) (Path.ofText ".") none = .ok notebookPath := by
    decide +kernel
  have hread : (notebook text).readText notebookPath = .ok text := by decide +kernel
  have hmapping : ((entriesOf? text).map fun entries =>
      ((unknownKeys entries).map Yaml.Value.shown, decide (Listable (unknownKeys entries)))) =
        some (["2", "1"], true) := by decide +kernel
  obtain ⟨entries, hentries, hkeys⟩ := Option.map_eq_some_iff.mp hmapping
  obtain ⟨hshown, hlists⟩ := Prod.mk.inj hkeys
  have hentries := ofText_of_entriesOf? hentries
  have hsome : unknownKeys entries ≠ [] := by
    intro hnone
    rw [hnone] at hshown
    cases hshown
  obtain ⟨answer, hanswers, hjudged⟩ := mapping_is_settled_or_refused hpath hread hentries
  obtain ⟨notices, hload⟩ := hanswers []
  cases hjudged with
  | settled a hnone => exact absurd hnone hsome
  | refused fault hlistable hfault hkeys =>
    obtain ⟨keys, hperm, rfl⟩ := hkeys hsome
    exact ⟨text, entries, keys, notices, hpath, hread, hentries, hload, hshown ▸ hperm.map _⟩
  | unlisted fault hlistable hfault => exact absurd (of_decide_eq_true hlists) hlistable

/-- A key that is a whole number and one that is a text are in no order, and the run ends with a fault
that it has no answer to. -/
theorem unordered_keys_in_notebook :
    ∃ text entries notices,
      filePath (notebook text) (Path.ofText ".") none = .ok notebookPath ∧
      (notebook text).readText notebookPath = .ok text ∧
      Yaml.Value.ofText text = .ok (.mapping entries) ∧
      load (notebook text) (Path.ofText ".") none [] = .error .unorderedKeys notices ∧
      ¬ Fault.unorderedKeys.IsReported := by
  let text := "1: x\na: y\n"
  have hpath : filePath (notebook text) (Path.ofText ".") none = .ok notebookPath := by
    decide +kernel
  have hread : (notebook text).readText notebookPath = .ok text := by decide +kernel
  have hmapping : ((entriesOf? text).map fun entries =>
      (Yaml.Value.sorted? (unknownKeys entries)).isNone) = some true := by decide +kernel
  obtain ⟨entries, hentries, hkeys⟩ := Option.map_eq_some_iff.mp hmapping
  have hentries := ofText_of_entriesOf? hentries
  obtain ⟨notices, hload⟩ := answers_load hpath hread []
  rw [ofText_of_mapping _ hentries, ofEntries_of_unordered (Option.isNone_iff_eq_none.mp hkeys)]
    at hload
  exact ⟨text, entries, notices, hpath, hread, hentries, hload, not_isReported rfl⟩

end TypeTrace.Config
