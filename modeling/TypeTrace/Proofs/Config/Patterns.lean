import TypeTrace.Proofs.Config.Normal
import TypeTrace.Proofs.Discovery

/-! # Searches with loaded settings

The patterns of settings that were loaded are relative. That does not make all of them patterns that can
be used: a search by them gives back documents if all of them can, and otherwise fails for what is wrong
with one of them.
-/

namespace TypeTrace.Config

open Noting

variable {files disk : FileTree} {root top : Path} {given : Option Path} {config : Config}
  {start after : List Notice}

/-- The search that settings ask for. -/
def searchBelow (config : Config) (top : Path) (exclude : List Path) : Discovery.Search :=
  ⟨top, config.patterns, config.maxFileKb, exclude⟩

/-- Why a search with settings in normal form fails. -/
inductive Refused (disk : FileTree) (patterns : List String) (exclude : List Path) :
    Glob.Fault → Prop where
  | pattern {pattern : String} {fault : Glob.Fault} (hpattern : pattern ∈ patterns)
      (h : Glob.Defect pattern fault) : Refused disk patterns exclude fault
  | unsettled {p : Path} {fault : PathFault} (hp : p ∈ exclude) (h : disk.settle p = .error fault) :
      Refused disk patterns exclude (.path fault)

theorem refused_of_hindered {search : Discovery.Search} {fault : Glob.Fault}
    (hroot : disk.settle search.root = .ok (disk.resolve search.root))
    (hpatterns : ∀ pattern ∈ search.patterns,
      pattern ≠ "" ∧ (Path.ofText pattern).isAbsolute = false)
    (h : Discovery.Hindered disk search fault) :
    Refused disk search.patterns search.exclude fault := by
  cases h with
  | unsettled hp hsettle =>
      rcases List.mem_cons.mp hp with rfl | hp
      · rw [hroot] at hsettle
        cases hsettle
      · exact .unsettled hp hsettle
  | @refused pattern fault hpattern hexpand =>
      obtain ⟨hne, hrelative⟩ := hpatterns pattern hpattern
      exact .pattern hpattern
        (Glob.defect_of_parse hne hrelative (Glob.parse_of_expand_eq_error hexpand))

/-- A search below a directory by patterns that were loaded gives back documents if all patterns can be
used, and all paths that are left out can be resolved. Otherwise it fails for one of these reasons. -/
theorem search_by_loaded_patterns (h : load files root given start = .ok config after)
    (hsound : disk.Sound) (htop : disk.isDirectory top = true) (exclude : List Path) :
    (∀ pattern ∈ config.patterns, pattern ≠ "" ∧ (Path.ofText pattern).isAbsolute = false) ∧
    ((∃ noted documents,
        (Discovery.run disk (config.searchBelow top exclude)).Notes noted documents) ↔
      (∀ pattern ∈ config.patterns, Glob.Usable pattern) ∧
        ∀ p ∈ exclude, disk.settle p = .ok (disk.resolve p)) ∧
    ∀ noted fault noted', Discovery.run disk (config.searchBelow top exclude) noted =
      .error fault noted' → Refused disk config.patterns exclude fault := by
  have hnormal := load_returns_normal files root given start config after h
  have hpatterns : ∀ pattern ∈ config.patterns,
      pattern ≠ "" ∧ (Path.ofText pattern).isAbsolute = false := fun pattern hpattern =>
    ⟨(hnormal.patternsTrimmed pattern hpattern).nonempty, hnormal.relative pattern hpattern⟩
  have hroot := hsound.settle_of_isDirectory htop
  refine ⟨hpatterns, ?_, ?_⟩
  · constructor
    · rintro ⟨noted, documents, hrun⟩
      have hsearch := Discovery.searchable_of_run (hrun [])
      exact ⟨hsearch.usable, (List.forall_mem_cons.mp hsearch.settled).2⟩
    · rintro ⟨husable, hexclude⟩
      have hsettled : ∀ p ∈ top :: exclude, disk.settle p = .ok (disk.resolve p) :=
        List.forall_mem_cons.mpr ⟨hroot, hexclude⟩
      exact ⟨_, _, Discovery.notes_run ⟨hsettled, husable⟩⟩
  · intro noted fault noted' hrun
    exact refused_of_hindered hroot hpatterns (Discovery.hindered_of_run hrun)

/-- The notebook is searched by the one pattern of its own settings. -/
theorem search_by_loaded_patterns_in_notebook :
    ∃ config after noted documents, load (notebook "documents: ['**/*.gql']\n") (Path.ofText ".") none
        [] = .ok config after ∧
      config.patterns = ["**/*.gql"] ∧ (notebook "documents: ['**/*.gql']\n").Sound ∧
      (notebook "documents: ['**/*.gql']\n").isDirectory (Path.ofText ".") = true ∧
      (Discovery.run (notebook "documents: ['**/*.gql']\n")
        (config.searchBelow (Path.ofText ".") [])).Notes noted documents := by
  let disk := notebook "documents: ['**/*.gql']\n"
  have hload : (match load disk (Path.ofText ".") none [] with
      | .ok config _ => config.patterns == ["**/*.gql"]
      | .error .. => false) = true := by decide +kernel
  have hsound : disk.Sound :=
    ⟨by decide +kernel, by decide +kernel, by decide +kernel, by decide +kernel⟩
  have htop : disk.isDirectory (Path.ofText ".") = true := by decide +kernel
  have husable : Glob.Usable "**/*.gql" :=
    Glob.exists_parse_iff.mp (exists_of_isOk (by decide +kernel))
  split at hload
  · next config after heq =>
    have hpatterns := beq_iff_eq.mp hload
    obtain ⟨-, hrun, -⟩ := search_by_loaded_patterns heq hsound htop []
    obtain ⟨noted, documents, hrun⟩ := hrun.mpr
      ⟨by rw [hpatterns]; exact List.forall_mem_singleton.mpr husable, List.forall_mem_nil _⟩
    exact ⟨config, after, noted, documents, heq, hpatterns, hsound, htop, hrun⟩
  · cases hload

/-- The settings of the notebook are loaded, and the search that they ask for fails. -/
def FailsLater (text : String) (fault : Glob.Fault) : Prop :=
  (notebook text).isDirectory (Path.ofText ".") = true ∧
    ∃ config after noted, load (notebook text) (Path.ofText ".") none [] = .ok config after ∧
      Discovery.run (notebook text) (config.searchBelow (Path.ofText ".") []) [] = .error fault noted

/-- How the search that the settings of the notebook ask for fails, if it does. -/
def laterFault? (text : String) : Option Glob.Fault :=
  match load (notebook text) (Path.ofText ".") none [] with
  | .error .. => none
  | .ok config _ =>
    match Discovery.run (notebook text) (config.searchBelow (Path.ofText ".") []) [] with
    | .error fault _ => some fault
    | .ok .. => none

theorem failsLater_of_laterFault? {text : String} {fault : Glob.Fault}
    (htop : (notebook text).isDirectory (Path.ofText ".") = true)
    (h : laterFault? text = some fault) : FailsLater text fault := by
  refine ⟨htop, ?_⟩
  unfold laterFault? at h
  split at h
  · cases h
  · next config after hload =>
    split at h
    · next noted hrun =>
      cases h
      exact ⟨config, after, noted, hload, hrun⟩
    · cases h

/-- Settings are loaded whose patterns have two stars within a part, or no parts. -/
theorem unusable_patterns_in_notebook :
    FailsLater "documents: ['a**b']\n" .doubleStarWithin ∧
      FailsLater "documents: ['.']\n" .noParts ∧ FailsLater "documents: ['./']\n" .onlySlash :=
  ⟨failsLater_of_laterFault? (by decide +kernel) (by decide +kernel),
    failsLater_of_laterFault? (by decide +kernel) (by decide +kernel),
    failsLater_of_laterFault? (by decide +kernel) (by decide +kernel)⟩

end TypeTrace.Config
