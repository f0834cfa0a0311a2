import Mathlib.Data.List.Infix
import TypeTrace.Files.Glob
import TypeTrace.Proofs.Files.Path
import TypeTrace.Proofs.Results

/-! # Patterns that can be used

A pattern can be used if it is relative and has parts, none of which has two stars side by side unless
it is these two stars. All other patterns are refused, each for what is wrong with it.
-/

namespace TypeTrace.Glob

variable {pattern part : String} {fault : Fault}

/-- A pattern by which files can be looked for. -/
structure Usable (pattern : String) : Prop where
  relative : (Path.ofText pattern).isAbsolute = false
  parts : (Path.ofText pattern).parts ≠ []
  stars : ∀ part ∈ (Path.ofText pattern).parts, ['*', '*'] <:+: part.toList → part = "**"

/-- What is wrong with a pattern that is refused although it is relative and not empty. -/
inductive Defect (pattern : String) : Fault → Prop where
  | noParts (h : (Path.ofText pattern).parts = []) : Defect pattern .noParts
  | onlySlash (h : (Path.ofText pattern).parts = []) : Defect pattern .onlySlash
  | doubleStar (part : String) (hpart : part ∈ (Path.ofText pattern).parts)
      (hstars : ['*', '*'] <:+: part.toList) (hmore : part ≠ "**") :
      Defect pattern .doubleStarWithin

theorem hasDoubleStar_iff (cs : List Char) : hasDoubleStar cs = true ↔ ['*', '*'] <:+: cs := by
  fun_induction hasDoubleStar cs with
  | case1 cs => simpa using ⟨[], cs, rfl⟩
  | case2 c cs hother ih =>
      rw [ih, List.infix_cons_iff]
      refine ⟨Or.inr, fun h => h.resolve_left ?_⟩
      rintro ⟨rest, hrest⟩
      cases hrest
      exact hother rest rfl rfl
  | case3 => simp

theorem exists_partOf_iff :
    (∃ p, partOf part = .ok p) ↔ (['*', '*'] <:+: part.toList → part = "**") := by
  unfold partOf
  by_cases hempty : part.isEmpty
  · have hnil : part = "" := String.isEmpty_iff.mp hempty
    simp [hnil]
  · by_cases hstars : part = "**"
    · simp [hstars]
    · rw [if_neg hempty, if_neg hstars]
      by_cases hwithin : hasDoubleStar part.toList = true
      · simp [hwithin, (hasDoubleStar_iff _).mp hwithin, hstars]
      · rw [if_neg hwithin, ← hasDoubleStar_iff]
        refine ⟨fun _ h => absurd h hwithin, fun _ => ?_⟩
        split
        · exact ⟨_, rfl⟩
        · exact ⟨_, rfl⟩

theorem stars_of_partOf_eq_error (h : partOf part = .error fault) :
    fault = .doubleStarWithin ∧ ['*', '*'] <:+: part.toList ∧ part ≠ "**" := by
  unfold partOf at h
  split at h
  · cases h
  · split at h
    · cases h
    · next hstars =>
      split at h
      · next hwithin =>
        cases h
        exact ⟨rfl, (hasDoubleStar_iff _).mp hwithin, hstars⟩
      · split at h <;> cases h

/-- The parts that are read: those of the path, and an empty one for a slash at the end. -/
def readParts (pattern : String) : List String :=
  (Path.ofText pattern).parts ++ if pattern.endsWith "/" then [""] else []

theorem mem_readParts (h : part ∈ readParts pattern) :
    part ∈ (Path.ofText pattern).parts ∨ part = "" := by
  rcases List.mem_append.mp h with hpart | hlast
  · exact Or.inl hpart
  · split at hlast
    · exact Or.inr (List.mem_singleton.mp hlast)
    · cases hlast

/-- A pattern is read if it can be used, and only then. -/
theorem exists_parse_iff : (∃ parts, parse pattern = .ok parts) ↔ Usable pattern := by
  unfold parse
  by_cases hempty : pattern.isEmpty
  · rw [if_pos hempty]
    have hnil : pattern = "" := String.isEmpty_iff.mp hempty
    refine ⟨by rintro ⟨parts, ⟨⟩⟩, fun h => absurd ?_ h.parts⟩
    rw [hnil]
    decide
  · rw [if_neg hempty]
    dsimp only
    split
    · next habsolute =>
      refine ⟨by rintro ⟨parts, ⟨⟩⟩, fun h => ?_⟩
      rw [h.relative] at habsolute
      cases habsolute
    · next hrelative =>
      split
      · next hparts =>
        exact ⟨by rintro ⟨parts, ⟨⟩⟩, fun h => absurd (List.isEmpty_iff.mp hparts) h.parts⟩
      · next hparts =>
        change (∃ parts, (readParts pattern).mapM partOf = .ok parts) ↔ _
        constructor
        · rintro ⟨parts, hread⟩
          refine ⟨by simpa using hrelative, by simpa using hparts, fun part hpart => ?_⟩
          obtain ⟨p, -, hp⟩ := exists_of_mem_left (forall₂_of_mapM hread)
            (List.mem_append_left _ hpart)
          exact exists_partOf_iff.mp ⟨p, hp⟩
        · intro h
          refine exists_mapM fun part hpart => exists_partOf_iff.mpr ?_
          rcases mem_readParts hpart with hpart | rfl
          · exact h.stars part hpart
          · simp

/-- A pattern that is refused has the defect that is named. -/
theorem defect_of_parse (hne : pattern ≠ "") (hrelative : (Path.ofText pattern).isAbsolute = false)
    (h : parse pattern = .error fault) : Defect pattern fault := by
  unfold parse at h
  rw [if_neg (by simpa using hne)] at h
  dsimp only at h
  rw [hrelative, if_neg Bool.false_ne_true] at h
  split at h
  · next hparts =>
    have hnone := List.isEmpty_iff.mp hparts
    split at h
    · cases h
      exact .onlySlash hnone
    · cases h
      exact .noParts hnone
  · obtain ⟨part, hpart, hfault⟩ := exists_of_mapM_eq_error h
    obtain ⟨rfl, hstars, hmore⟩ := stars_of_partOf_eq_error hfault
    rcases mem_readParts hpart with hpart | rfl
    · exact .doubleStar part hpart hstars hmore
    · simp at hstars

theorem mapM_of_parse {parts : List Part} (h : parse pattern = .ok parts) :
    (readParts pattern).mapM partOf = .ok parts := by
  unfold parse at h
  split at h
  · cases h
  · dsimp only at h
    split at h
    · cases h
    · split at h
      · cases h
      · exact h

theorem eq_of_partOf_eq_exact {name : String} (h : partOf part = .ok (.exact name)) :
    name = part ∧ part ≠ "" := by
  unfold partOf at h
  split at h
  · cases h
  · next hempty =>
    split at h
    · cases h
    · split at h
      · cases h
      · split at h
        · cases h
        · cases h
          exact ⟨rfl, by simpa using hempty⟩

/-- What a pattern asks for as it is, is a name. -/
theorem isPart_of_parse {parts : List Part} {name : String} (h : parse pattern = .ok parts)
    (hname : .exact name ∈ parts) : Path.IsPart name := by
  obtain ⟨part, hpart, hread⟩ := exists_of_mem_right (forall₂_of_mapM (mapM_of_parse h)) hname
  obtain ⟨rfl, hne⟩ := eq_of_partOf_eq_exact hread
  exact Path.isPart_of_ofText ((mem_readParts hpart).resolve_right hne)

variable {files : FileTree} {root : Path}

theorem exists_expand_iff : (∃ paths, expand files root pattern = .ok paths) ↔ Usable pattern := by
  rw [← exists_parse_iff]
  unfold expand
  cases parse pattern with
  | error fault => exact ⟨by rintro ⟨_, ⟨⟩⟩, by rintro ⟨_, ⟨⟩⟩⟩
  | ok parts => exact ⟨fun _ => ⟨parts, rfl⟩, fun _ => ⟨_, rfl⟩⟩

theorem parse_of_expand_eq_error (h : expand files root pattern = .error fault) :
    parse pattern = .error fault := by
  rcases of_bind_eq_error h with h | ⟨parts, -, h⟩
  · exact h
  · cases h

end TypeTrace.Glob
