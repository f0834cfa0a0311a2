import TypeTrace.Config.Load
import TypeTrace.Proofs.Results

/-! # What a configuration settles

A mapping is a configuration if its keys are names of settings and each setting is read from the value
of its own key, or is as it is by default.
-/

namespace TypeTrace.Config

/-- What a configuration settles. -/
inductive Setting where
  | schema | patterns | kinds | size | flag

namespace Setting

/-- The name of a setting. -/
def key : Setting → String
  | schema => "schema"
  | patterns => "documents"
  | kinds => "kinds"
  | size => "max_file_kb"
  | flag => "fail_on_unresolved"

/-- Two configurations settle this alike. -/
def Same : Setting → Config → Config → Prop
  | schema, c, d => c.schemaPaths = d.schemaPaths
  | patterns, c, d => c.patterns = d.patterns
  | kinds, c, d => c.kinds = d.kinds
  | size, c, d => c.maxFileKb = d.maxFileKb
  | flag, c, d => c.failOnUnresolved = d.failOnUnresolved

/-- A configuration settles this as a value says, or as it is by default if there is no value. -/
def Reads : Setting → Option Yaml.Value → Config → Prop
  | schema, value, c => value.elim (.ok standard.schemaPaths) schemaSetting = .ok c.schemaPaths
  | patterns, value, c => value.elim (.ok standard.patterns) patternsSetting = .ok c.patterns
  | kinds, value, c => value.elim (.ok standard.kinds) kindsSetting = .ok c.kinds
  | size, value, c => value.elim (.ok standard.maxFileKb) sizeSetting = .ok c.maxFileKb
  | flag, value, c =>
      value.elim (.ok standard.failOnUnresolved) flagSetting = .ok c.failOnUnresolved

variable {s t : Setting} {value : Option Yaml.Value} {c d : Config}

theorem mem_keys_iff {name : String} : name ∈ keys ↔ ∃ s : Setting, s.key = name := by
  constructor
  · intro h
    simp only [keys, List.mem_cons, List.not_mem_nil, or_false] at h
    rcases h with rfl | rfl | rfl | rfl | rfl
    · exact ⟨schema, rfl⟩
    · exact ⟨patterns, rfl⟩
    · exact ⟨kinds, rfl⟩
    · exact ⟨size, rfl⟩
    · exact ⟨flag, rfl⟩
  · rintro ⟨s, rfl⟩
    cases s <;> decide

theorem key_inj (h : s.key = t.key) : s = t := by
  cases s <;> cases t <;> simp [key] at h ⊢

theorem reads_standard (s : Setting) : s.Reads none standard := by
  cases s <;> rfl

theorem Reads.same (h : s.Reads value c) (h' : s.Reads value d) : s.Same c d := by
  cases s <;> exact Except.ok.inj (h.symm.trans h')

/-- Settings can be put together from configurations that have one each. -/
theorem exists_reads {f : Setting → Option Yaml.Value}
    (h : ∀ s : Setting, ∃ c, s.Reads (f s) c) : ∃ c, ∀ s : Setting, s.Reads (f s) c := by
  obtain ⟨c₁, hschema⟩ := h schema
  obtain ⟨c₂, hpatterns⟩ := h patterns
  obtain ⟨c₃, hkinds⟩ := h kinds
  obtain ⟨c₄, hsize⟩ := h size
  obtain ⟨c₅, hflag⟩ := h flag
  refine ⟨⟨c₁.schemaPaths, c₂.patterns, c₃.kinds, c₄.maxFileKb, c₅.failOnUnresolved⟩, fun s => ?_⟩
  cases s with
  | schema => exact hschema
  | patterns => exact hpatterns
  | kinds => exact hkinds
  | size => exact hsize
  | flag => exact hflag

end Setting

theorem setting_eq {α : Type} (entries : List (Yaml.Value × Yaml.Value)) (key : String)
    (read : Yaml.Value → Except Fault α) (a : α) :
    setting entries key read a = (Yaml.Value.get? key entries).elim (.ok a) read := by
  unfold setting
  cases Yaml.Value.get? key entries <;> rfl

/-- A mapping is a configuration if its keys are names of settings and each setting is read from the
value of its own key. -/
theorem ofEntries_eq_ok {entries : List (Yaml.Value × Yaml.Value)} {config : Config} :
    ofEntries entries = .ok config ↔ checkKeys entries = .ok () ∧
      ∀ s : Setting, s.Reads (Yaml.Value.get? s.key entries) config := by
  constructor
  · intro h
    obtain ⟨_, hcheck, h⟩ := exists_of_bind_eq_ok h
    obtain ⟨schemaPaths, hschema, h⟩ := exists_of_bind_eq_ok h
    obtain ⟨kinds, hkinds, h⟩ := exists_of_bind_eq_ok h
    obtain ⟨maxFileKb, hsize, h⟩ := exists_of_bind_eq_ok h
    obtain ⟨failOnUnresolved, hflag, h⟩ := exists_of_bind_eq_ok h
    obtain ⟨patterns, hpatterns, h⟩ := exists_of_bind_eq_ok h
    cases h
    rw [setting_eq] at hschema hkinds hsize hflag hpatterns
    refine ⟨hcheck, fun s => ?_⟩
    cases s with
    | schema => exact hschema
    | patterns => exact hpatterns
    | kinds => exact hkinds
    | size => exact hsize
    | flag => exact hflag
  · rintro ⟨hcheck, hreads⟩
    have hschema : setting entries "schema" schemaSetting standard.schemaPaths =
        .ok config.schemaPaths := (setting_eq _ _ _ _).trans (hreads .schema)
    have hkinds : setting entries "kinds" kindsSetting standard.kinds = .ok config.kinds :=
      (setting_eq _ _ _ _).trans (hreads .kinds)
    have hsize : setting entries "max_file_kb" sizeSetting standard.maxFileKb =
        .ok config.maxFileKb := (setting_eq _ _ _ _).trans (hreads .size)
    have hflag : setting entries "fail_on_unresolved" flagSetting standard.failOnUnresolved =
        .ok config.failOnUnresolved := (setting_eq _ _ _ _).trans (hreads .flag)
    have hpatterns : setting entries "documents" patternsSetting standard.patterns =
        .ok config.patterns := (setting_eq _ _ _ _).trans (hreads .patterns)
    rw [ofEntries, hcheck, hschema, hkinds, hsize, hflag, hpatterns]
    rfl

end TypeTrace.Config
