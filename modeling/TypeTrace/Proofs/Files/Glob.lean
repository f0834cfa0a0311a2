import TypeTrace.Files.Glob
import TypeTrace.Proofs.Files.Places

/-! # What patterns stand for

A pattern stands for the same paths in whatever order a directory is listed.
-/

namespace TypeTrace.Glob

variable {files files' : FileTree}

theorem names_perm (h : files.Shuffled files') (place : Location) :
    (files.names place).Perm (files'.names place) :=
  h.entries.filterMap _

theorem directoriesBelow_perm (h : files.Shuffled files') (place : Location) :
    (files.directoriesBelow place).Perm (files'.directoriesBelow place) :=
  h.entries.filterMap _

theorem mem_select (h : files.Shuffled files') (hsound : files.Sound) (parts : List Part)
    (root p : Path) : p ∈ select files parts root ↔ p ∈ select files' parts root := by
  have hagrees := h.agrees hsound
  induction parts generalizing root with
  | nil => exact Iff.rfl
  | cons part rest ih =>
      cases part with
      | nothing => exact Iff.rfl
      | exact name =>
          rw [select, select]
          simp only [hagrees.pathExists, hagrees.isDirectory]
          have hnext (there : Prop) [Decidable there] :
              (p ∈ if there then select files rest (root.child name) else []) ↔
                p ∈ if there then select files' rest (root.child name) else [] := by
            split
            · exact ih _
            · exact Iff.rfl
          exact hnext _
      | wild pieces =>
          rw [select, select, hagrees.locate]
          cases files'.locate root with
          | error cause => exact Iff.rfl
          | ok place =>
              simp only [List.mem_flatMap, List.mem_filter, (names_perm h place).mem_iff,
                hagrees.isDirectory, ih]
      | anyDepth =>
          rw [select, select, hagrees.locate]
          cases files'.locate root with
          | error cause => exact Iff.rfl
          | ok place =>
              simp only [List.mem_eraseDups, List.mem_flatMap, List.mem_cons,
                (directoriesBelow_perm h place).mem_iff, ih]

/-- A pattern is refused in both trees or in none, and stands for the same paths. -/
theorem mem_expand (h : files.Shuffled files') (hsound : files.Sound) {root : Path}
    {pattern : String} {paths : List Path} (hpaths : expand files root pattern = .ok paths) :
    ∃ paths', expand files' root pattern = .ok paths' ∧ ∀ p, p ∈ paths ↔ p ∈ paths' := by
  unfold expand at hpaths ⊢
  cases hparse : parse pattern with
  | error fault =>
      rw [hparse] at hpaths
      cases hpaths
  | ok parts =>
      rw [hparse] at hpaths
      cases hpaths
      refine ⟨_, rfl, fun p => ?_⟩
      rw [(h.agrees hsound).isDirectory]
      split
      · exact mem_select h hsound parts root p
      · exact Iff.rfl

end TypeTrace.Glob
