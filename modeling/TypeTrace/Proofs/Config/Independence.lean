import TypeTrace.Proofs.Config.Refusal
import TypeTrace.Proofs.Config.Setting

/-! # Settings one by one

What a mapping settles is judged key by key. A mapping is taken if all its keys are names of settings
and each of its entries would be taken alone, and then every setting is as its own entry alone has it,
or as it is by default. No entry has a say in what becomes of another one.
-/

namespace TypeTrace.Config

theorem checkKeys_eq_ok {entries : List (Yaml.Value × Yaml.Value)} :
    checkKeys entries = .ok () ↔ ∀ entry ∈ entries, isKnown entry.1 = true := by
  have hnone : (unknownKeys entries).isEmpty ↔ ∀ entry ∈ entries, isKnown entry.1 = true := by
    simp [unknownKeys]
  rw [← hnone]
  unfold checkKeys
  extract_lets unknown
  change _ ↔ unknown.isEmpty
  split
  · next hempty => simp [hempty]
  · next hsome =>
    refine iff_of_false ?_ hsome
    split
    · split <;> simp
    · simp

/-- A mapping whose keys are texts, each of them there once. -/
structure TextMapping where
  entries : List (String × Yaml.Value)
  distinct : (entries.map Prod.fst).Nodup

namespace TextMapping

variable {m other : TextMapping} {config config' : Config} {name : String} {value : Yaml.Value}

/-- The keys. -/
def names (m : TextMapping) : List String := m.entries.map Prod.fst

/-- The value of a key. -/
def value? (m : TextMapping) (name : String) : Option Yaml.Value := m.entries.lookup name

/-- The mapping as a value has it. -/
def toEntries (m : TextMapping) : List (Yaml.Value × Yaml.Value) :=
  m.entries.map fun entry => (.text entry.1, entry.2)

/-- The mapping of one key. -/
def single (name : String) (value : Yaml.Value) : TextMapping := ⟨[(name, value)], by simp⟩

/-- What is made of a mapping, and so of every file that holds it. -/
structure LoadsAs (m : TextMapping) (answer : Except Fault Config) : Prop where
  judged : ofEntries m.toEntries = answer
  loaded : ∀ files root given path text, filePath files root given = .ok path →
    files.readText path = .ok text → Yaml.Value.ofText text = .ok (.mapping m.toEntries) →
      (load files root given).Answers answer

theorem loadsAs_iff {answer : Except Fault Config} :
    m.LoadsAs answer ↔ ofEntries m.toEntries = answer := by
  refine ⟨LoadsAs.judged, fun h => ⟨h, fun files root given path text hpath hread hmapping => ?_⟩⟩
  rw [← h, ← ofText_of_mapping _ hmapping]
  exact answers_load hpath hread

theorem get?_toEntries (m : TextMapping) (name : String) :
    Yaml.Value.get? name m.toEntries = m.value? name := by
  rw [toEntries, value?]
  induction m.entries with
  | nil => rfl
  | cons entry entries ih =>
      obtain ⟨key, value⟩ := entry
      have hsame : (Yaml.Value.text key).sameKey (.text name) = (name == key) := BEq.comm
      rw [Yaml.Value.get?] at ih ⊢
      rw [List.map_cons, List.find?_cons, List.lookup_cons]
      dsimp only
      rw [hsame]
      cases name == key
      · exact ih
      · rfl

theorem value?_eq_some : m.value? name = some value ↔ (name, value) ∈ m.entries :=
  ⟨mem_of_lookup, lookup_of_mem m.distinct⟩

theorem value?_eq_none (h : name ∉ m.names) : m.value? name = none :=
  Option.eq_none_iff_forall_not_mem.mpr fun _ hvalue =>
    h (List.mem_map.mpr ⟨_, value?_eq_some.mp hvalue, rfl⟩)

theorem checkKeys_toEntries (m : TextMapping) :
    checkKeys m.toEntries = .ok () ↔ ∀ name ∈ m.names, name ∈ keys := by
  have hknown (name : String) : isKnown (.text name) = true ↔ name ∈ keys := List.contains_iff_mem
  rw [checkKeys_eq_ok, toEntries, names, List.forall_mem_map, List.forall_mem_map]
  exact forall₂_congr fun entry _ => hknown entry.1

/-- A mapping is taken as a configuration if its keys are names of settings and each setting is read
from the value of its own key. -/
theorem loadsAs_ok : m.LoadsAs (.ok config) ↔
    (∀ name ∈ m.names, name ∈ keys) ∧ ∀ s : Setting, s.Reads (m.value? s.key) config := by
  rw [loadsAs_iff, ofEntries_eq_ok, checkKeys_toEntries]
  simp only [get?_toEntries]

theorem value?_single (name other : String) (value : Yaml.Value) :
    (single name value).value? other = if other = name then some value else none := by
  rw [value?, single, List.lookup_cons]
  split
  · next heq => rw [if_pos (beq_iff_eq.mp heq)]
  · next hne => rw [if_neg (ne_of_beq_false hne), List.lookup_nil]

/-- An entry is taken alone if it can be read. -/
theorem exists_single_iff {s : Setting} :
    (∃ config, (single s.key value).LoadsAs (.ok config)) ↔ ∃ config, s.Reads (some value) config := by
  constructor
  · rintro ⟨config, h⟩
    have hread := (loadsAs_ok.mp h).2 s
    rw [value?_single, if_pos rfl] at hread
    exact ⟨config, hread⟩
  · rintro ⟨config, h⟩
    obtain ⟨alone, hreads⟩ := Setting.exists_reads
        (f := fun t => (single s.key value).value? t.key) fun t => by
      rw [value?_single]
      by_cases hkey : t.key = s.key
      · rw [if_pos hkey, Setting.key_inj hkey]
        exact ⟨config, h⟩
      · rw [if_neg hkey]
        exact ⟨_, t.reads_standard⟩
    refine ⟨alone, loadsAs_ok.mpr ⟨?_, hreads⟩⟩
    exact List.forall_mem_singleton.mpr (Setting.mem_keys_iff.mpr ⟨s, rfl⟩)

/-- The settings of a mapping can be put together if each entry can be read. -/
theorem exists_loadsAs_iff : (∃ config, m.LoadsAs (.ok config)) ↔
    (∀ name ∈ m.names, name ∈ keys) ∧
      ∀ (s : Setting) (value), m.value? s.key = some value → ∃ config, s.Reads (some value) config := by
  constructor
  · rintro ⟨config, h⟩
    obtain ⟨hnames, hreads⟩ := loadsAs_ok.mp h
    exact ⟨hnames, fun s value hvalue => ⟨config, hvalue ▸ hreads s⟩⟩
  · rintro ⟨hnames, hreads⟩
    obtain ⟨config, hall⟩ := Setting.exists_reads (f := fun s => m.value? s.key) fun s => by
      cases hvalue : m.value? s.key with
      | none => exact ⟨_, s.reads_standard⟩
      | some value => exact hreads s value hvalue
    exact ⟨config, loadsAs_ok.mpr ⟨hnames, hall⟩⟩

/-- A mapping is taken as a configuration if and only if all its keys are names of settings and each of
its entries is taken alone. Then each setting is as its own entry alone has it, or as it is by default
where it has none; and mappings that have the same value for a key settle it alike, whatever else has
been added, removed or changed. -/
theorem keys_settle_independently (m : TextMapping) :
    ((∃ config, m.LoadsAs (.ok config)) ↔ (∀ name ∈ m.names, name ∈ keys) ∧
      ∀ entry ∈ m.entries, ∃ config, (single entry.1 entry.2).LoadsAs (.ok config)) ∧
    ∀ config, m.LoadsAs (.ok config) → ∀ s : Setting,
      (∀ value, (s.key, value) ∈ m.entries →
        ∃ alone, (single s.key value).LoadsAs (.ok alone) ∧ s.Same config alone) ∧
      (s.key ∉ m.names → s.Same config standard) ∧
      ∀ (other : TextMapping) config', other.value? s.key = m.value? s.key → other.LoadsAs (.ok config') →
        s.Same config config' := by
  constructor
  · rw [exists_loadsAs_iff]
    refine and_congr_right fun hnames => ⟨fun h entry hentry => ?_, fun h s value hvalue => ?_⟩
    · obtain ⟨s, hkey⟩ := Setting.mem_keys_iff.mp (hnames _ (List.mem_map_of_mem hentry))
      rw [← hkey, exists_single_iff]
      exact h s entry.2 (value?_eq_some.mpr (hkey ▸ hentry))
    · exact exists_single_iff.mp (h _ (value?_eq_some.mp hvalue))
  · intro config h s
    have hread := (loadsAs_ok.mp h).2 s
    refine ⟨fun value hvalue => ?_, fun hname => ?_, fun other config' hsame hother => ?_⟩
    · rw [value?_eq_some.mpr hvalue] at hread
      obtain ⟨alone, halone⟩ := exists_single_iff.mpr ⟨config, hread⟩
      have hread' := (loadsAs_ok.mp halone).2 s
      rw [value?_single, if_pos rfl] at hread'
      exact ⟨alone, halone, hread.same hread'⟩
    · rw [value?_eq_none hname] at hread
      exact hread.same s.reads_standard
    · have hread' := (loadsAs_ok.mp hother).2 s
      rw [hsame] at hread'
      exact hread.same hread'

/-- A mapping that settles two things. -/
def twoSettings : TextMapping :=
  ⟨[("schema", .text "a.graphql"), ("max_file_kb", .int 64)], by decide⟩

/-- What a mapping says of the schema is what it says alone, and of what it does not name the defaults
hold. A mapping with an entry that is refused alone is refused. -/
theorem keys_settle_independently_of_two :
    (∃ config alone, twoSettings.LoadsAs (.ok config) ∧ config.maxFileKb = 64 ∧
      (single "schema" (.text "a.graphql")).LoadsAs (.ok alone) ∧
      Setting.schema.Same config alone ∧ Setting.flag.Same config standard) ∧
    ¬ ∃ config, (⟨[("schema", .text "a.graphql"), ("max_file_kb", .int 0)], by decide⟩ :
      TextMapping).LoadsAs (.ok config) := by
  constructor
  · let both : Config := { standard with schemaPaths := ["a.graphql"], maxFileKb := 64 }
    have hboth : twoSettings.LoadsAs (.ok both) :=
      loadsAs_iff.mpr (eq_ok_of_toOption (by decide +kernel))
    have hsettled := (keys_settle_independently twoSettings).2 both hboth
    obtain ⟨alone, halone, hsame⟩ := (hsettled .schema).1 (.text "a.graphql") List.mem_cons_self
    exact ⟨both, alone, hboth, rfl, halone, hsame, (hsettled .flag).2.1 (by decide)⟩
  · intro haccepted
    have hsize := ((keys_settle_independently _).1.mp haccepted).2 ("max_file_kb", .int 0) (by simp)
    obtain ⟨config, hzero⟩ := hsize
    cases hzero.judged

end TextMapping

end TypeTrace.Config
