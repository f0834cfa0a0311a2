import Mathlib.Data.List.Infix
import TypeTrace.Files.Glob
import TypeTrace.Proofs.Files.Places
import TypeTrace.Proofs.Results

/-! # Where patterns lead

A pattern leads from a directory to paths as its parts say, one after the other. The paths that are
selected by going through a tree are those to which the pattern leads, and no others.
-/

namespace TypeTrace

variable {files : FileTree} {p q r : Path} {place : Location} {name : String}

namespace FileTree

/-! ## Directories -/

/-- What has a name in the directory that a path leads to. -/
def within? (files : FileTree) (p : Path) (name : String) : Option FileEntry :=
  match files.locate p with
  | .ok place => files.get? (place ++ [name])
  | .error _ => none

/-- One path goes on from another through directories, and not through links. -/
inductive Descends (files : FileTree) : Path → Path → Prop where
  | here (p : Path) : Descends files p p
  | into {p q : Path} {name : String} (hin : files.within? p name = some .directory)
      (h : Descends files (p.child name) q) : Descends files p q

theorem within?_of_locate (h : files.locate p = .ok place) :
    files.within? p name = files.get? (place ++ [name]) := by
  rw [within?, h]

theorem pathExists_of_isDirectory (h : files.isDirectory p = true) : files.pathExists p = true := by
  rw [pathExists, beq_iff_eq.mp h]
  rfl

theorem Sound.mem_entries_iff (hsound : files.Sound) {entry : FileEntry} (hne : place ≠ []) :
    (place, entry) ∈ files.entries ↔ files.get? place = some entry := by
  rw [get?_of_ne_nil hne]
  exact ⟨lookup_of_mem hsound.distinct, mem_of_lookup⟩

theorem Sound.mem_names (hsound : files.Sound) :
    name ∈ files.names place ↔ ∃ entry, files.get? (place ++ [name]) = some entry := by
  have hmem {entry : FileEntry} : (place ++ [name], entry) ∈ files.entries ↔
      files.get? (place ++ [name]) = some entry := hsound.mem_entries_iff (by simp)
  simp only [← hmem, names, List.mem_filterMap, Prod.exists]
  constructor
  · rintro ⟨location, entry, hentry, hname⟩
    split at hname
    · next last hlast =>
      split at hname
      · next habove =>
        cases hname
        refine ⟨entry, ?_⟩
        rwa [← habove, List.dropLast_append_getLast? name hlast]
      · cases hname
    · cases hname
  · rintro ⟨entry, hentry⟩
    exact ⟨place ++ [name], entry, hentry, by simp⟩

theorem Sound.mem_directoriesBelow (hsound : files.Sound) {below : List String} :
    below ∈ files.directoriesBelow place ↔
      below ≠ [] ∧ files.get? (place ++ below) = some .directory := by
  have hmem (hbelow : below ≠ []) : (place ++ below, .directory) ∈ files.entries ↔
      files.get? (place ++ below) = some .directory := hsound.mem_entries_iff (by simp [hbelow])
  simp only [directoriesBelow, List.mem_filterMap, Prod.exists, Option.ite_none_right_eq_some,
    Option.some.injEq]
  constructor
  · rintro ⟨location, entry, hentry, ⟨rfl, hprefix, hlength⟩, rfl⟩
    obtain ⟨rest, rfl⟩ := List.isPrefixOf_iff_prefix.mp hprefix
    have hrest : rest ≠ [] := by
      rintro rfl
      simp at hlength
    rw [List.drop_left] at hmem ⊢
    exact ⟨hrest, (hmem hrest).mp hentry⟩
  · rintro ⟨hbelow, hget⟩
    refine ⟨place ++ below, .directory, (hmem hbelow).mpr hget, ⟨rfl, ?_, ?_⟩, List.drop_left⟩
    · exact List.isPrefixOf_iff_prefix.mpr (List.prefix_append place below)
    · simpa using hbelow

theorem Sound.locate_into (hsound : files.Sound) (hlocate : files.locate p = .ok place)
    (hin : files.get? (place ++ [name]) = some .directory) :
    files.locate (p.child name) = .ok (place ++ [name]) := by
  have hname := (hsound.isPart hin name (by simp)).2
  have hplace := hsound.directory_above (List.cons_ne_nil name []) hin
  exact locate_child hname hplace hin (by simp) hlocate

/-- A path goes on through directories by the parts of a directory below the one that it leads to. -/
theorem Sound.descends_iff (hsound : files.Sound) (hlocate : files.locate p = .ok place)
    (hget : files.get? place = some .directory) :
    files.Descends p q ↔ ∃ below, files.get? (place ++ below) = some .directory ∧
      q = { p with parts := p.parts ++ below } := by
  constructor
  · intro h
    induction h generalizing place with
    | here p => exact ⟨[], by simpa using hget, by simp⟩
    | @into p q name hin h ih =>
        rw [within?_of_locate hlocate] at hin
        obtain ⟨below, hbelow, rfl⟩ := ih (hsound.locate_into hlocate hin) hin
        exact ⟨name :: below, by simpa using hbelow, by simp [Path.child]⟩
  · rintro ⟨below, hbelow, rfl⟩
    induction below generalizing p place with
    | nil =>
        rw [List.append_nil]
        exact .here p
    | cons name below ih =>
        rw [List.append_cons] at hbelow
        have hin : files.get? (place ++ [name]) = some .directory := by
          by_cases hlast : below = []
          · simpa [hlast] using hbelow
          · exact hsound.directory_above hlast hbelow
        have hrest := ih (hsound.locate_into hlocate hin) hin hbelow
        refine .into (by rw [within?_of_locate hlocate, hin]) ?_
        rwa [List.append_cons]

theorem Sound.isDirectory_of_descends (hsound : files.Sound) (h : files.Descends p q)
    (hp : files.isDirectory p = true) : files.isDirectory q = true := by
  induction h with
  | here p => exact hp
  | @into p q name hin h ih =>
      obtain ⟨place, hlocate, hget⟩ := isDirectory_iff.mp hp
      rw [within?_of_locate hlocate] at hin
      exact ih (isDirectory_iff.mpr ⟨_, hsound.locate_into hlocate hin, hin⟩)

theorem Sound.isPart_of_within? (hsound : files.Sound) (h : (files.within? p name).isSome = true) :
    Path.IsPart name := by
  obtain ⟨entry, hentry⟩ := Option.isSome_iff_exists.mp h
  unfold within? at hentry
  split at hentry
  · exact (hsound.isPart hentry name (by simp)).1
  · cases hentry

theorem Sound.isPart_of_descends (hsound : files.Sound) (h : files.Descends p q)
    (hp : ∀ part ∈ p.parts, Path.IsPart part) : ∀ part ∈ q.parts, Path.IsPart part := by
  induction h with
  | here p => exact hp
  | into hin h ih =>
      have hname := hsound.isPart_of_within? (Option.isSome_iff_exists.mpr ⟨_, hin⟩)
      exact ih (List.forall_mem_append.mpr ⟨hp, List.forall_mem_singleton.mpr hname⟩)

end FileTree

namespace Glob

/-! ## Names -/

variable {pieces : List Piece} {cs : List Char} {parts : List Part}

/-- Pieces stand for a name: each star for any characters, and each other piece for one that it
admits. -/
inductive Fits : List Piece → List Char → Prop where
  | nil : Fits [] []
  | star {pieces : List Piece} {cs : List Char} (skipped : List Char) (h : Fits pieces cs) :
      Fits (.star :: pieces) (skipped ++ cs)
  | one {piece : Piece} {pieces : List Piece} {c : Char} {cs : List Char}
      (hadmits : piece.admits c = true) (h : Fits pieces cs) : Fits (piece :: pieces) (c :: cs)

theorem someEnd_iff {test : List Char → Bool} :
    someEnd test cs = true ↔ ∃ skipped rest, cs = skipped ++ rest ∧ test rest = true := by
  induction cs with
  | nil => simp [someEnd]
  | cons c cs ih =>
      rw [someEnd, Bool.or_eq_true, ih]
      constructor
      · rintro (h | ⟨skipped, rest, rfl, h⟩)
        · exact ⟨[], c :: cs, rfl, h⟩
        · exact ⟨c :: skipped, rest, rfl, h⟩
      · rintro ⟨skipped, rest, heq, h⟩
        cases skipped with
        | nil => exact Or.inl (heq ▸ h)
        | cons d skipped =>
            cases heq
            exact Or.inr ⟨skipped, rest, rfl, h⟩

theorem fits_iff : fits pieces cs = true ↔ Fits pieces cs := by
  induction pieces generalizing cs with
  | nil =>
      rw [fits, List.isEmpty_iff]
      constructor
      · rintro rfl
        exact .nil
      · rintro ⟨⟩
        rfl
  | cons piece pieces ih =>
      by_cases hstar : piece = .star
      · rw [hstar, fits, someEnd_iff]
        constructor
        · rintro ⟨skipped, rest, rfl, h⟩
          exact .star skipped (ih.mp h)
        · intro h
          cases h with
          | star skipped h => exact ⟨skipped, _, rfl, ih.mpr h⟩
          | one hadmits => cases hadmits
      · rw [fits.eq_3 piece pieces hstar]
        constructor
        · intro h
          cases cs with
          | nil => cases h
          | cons c cs =>
              obtain ⟨hadmits, h⟩ := Bool.and_eq_true_iff.mp h
              exact .one hadmits (ih.mp h)
        · intro h
          cases h with
          | star => exact absurd rfl hstar
          | one hadmits h => exact Bool.and_eq_true_iff.mpr ⟨hadmits, ih.mpr h⟩

/-! ## Paths -/

/-- Parts of a pattern lead from a directory to a path. What has more parts behind it leads on from
directories only. -/
inductive Leads (files : FileTree) : List Part → Path → Path → Prop where
  | stop (p : Path) : Leads files [] p p
  | nothing (rest : List Part) (p : Path) : Leads files (.nothing :: rest) p p
  | exact {p q : Path} {name : String} {rest : List Part}
      (hthere : files.pathExists (p.child name) = true)
      (hdirectory : rest ≠ [] → files.isDirectory (p.child name) = true)
      (h : Leads files rest (p.child name) q) : Leads files (.exact name :: rest) p q
  | wild {p q : Path} {name : String} {pieces : List Piece} {rest : List Part}
      (hthere : (files.within? p name).isSome = true) (hfits : Fits pieces name.toList)
      (hdirectory : rest ≠ [] → files.isDirectory (p.child name) = true)
      (h : Leads files rest (p.child name) q) : Leads files (.wild pieces :: rest) p q
  | anyDepth {p q r : Path} {rest : List Part} (hdown : files.Descends p q)
      (h : Leads files rest q r) : Leads files (.anyDepth :: rest) p r

variable {rest : List Part}

theorem mem_select_exact : q ∈ select files (.exact name :: rest) p ↔
    files.pathExists (p.child name) = true ∧
      (rest ≠ [] → files.isDirectory (p.child name) = true) ∧
      q ∈ select files rest (p.child name) := by
  rw [select]
  by_cases hrest : rest = []
  · rw [hrest, List.isEmpty_nil, if_pos rfl]
    split
    · next hthere => simp [hthere]
    · next hnone => simp [hnone]
  · have hmore : rest.isEmpty = false := by simpa using hrest
    rw [hmore]
    simp only [Bool.false_eq_true, if_false]
    split
    · next hnext => simp [hnext, FileTree.pathExists_of_isDirectory hnext]
    · next hnone => simp [hrest, hnone]

theorem mem_select_wild (hsound : files.Sound) (hlocate : files.locate p = .ok place) :
    q ∈ select files (.wild pieces :: rest) p ↔ ∃ name,
      (files.within? p name).isSome = true ∧ Fits pieces name.toList ∧
        (rest ≠ [] → files.isDirectory (p.child name) = true) ∧
        q ∈ select files rest (p.child name) := by
  rw [select, hlocate]
  simp only [List.mem_flatMap, List.mem_filter, Bool.and_eq_true, Bool.or_eq_true,
    List.isEmpty_iff, fits_iff, hsound.mem_names, ← FileTree.within?_of_locate hlocate,
    ← Option.isSome_iff_exists, or_iff_not_imp_left, and_assoc, ne_eq]

theorem mem_select_anyDepth (hsound : files.Sound) (hlocate : files.locate p = .ok place)
    (hget : files.get? place = some .directory) :
    q ∈ select files (.anyDepth :: rest) p ↔
      ∃ r, files.Descends p r ∧ q ∈ select files rest r := by
  have hbelow (below : List String) : below ∈ [] :: files.directoriesBelow place ↔
      files.get? (place ++ below) = some .directory := by
    rw [List.mem_cons, hsound.mem_directoriesBelow]
    by_cases hnil : below = []
    · simp [hnil, hget]
    · simp [hnil]
  rw [select, hlocate]
  simp only [List.mem_eraseDups, List.mem_flatMap, hbelow, hsound.descends_iff hlocate hget]
  constructor
  · rintro ⟨below, hget, h⟩
    exact ⟨_, ⟨below, hget, rfl⟩, h⟩
  · rintro ⟨_, ⟨below, hget, rfl⟩, h⟩
    exact ⟨below, hget, h⟩

/-- What is selected from a directory is what the parts lead to. -/
theorem mem_select_iff (hsound : files.Sound)
    (hdirectory : parts ≠ [] → files.isDirectory p = true) :
    q ∈ select files parts p ↔ Leads files parts p q := by
  induction parts generalizing p with
  | nil =>
      rw [select, List.mem_singleton]
      constructor
      · rintro rfl
        exact .stop q
      · rintro ⟨⟩
        rfl
  | cons part rest ih =>
      have hhere := hdirectory (List.cons_ne_nil part rest)
      obtain ⟨place, hlocate, hget⟩ := FileTree.isDirectory_iff.mp hhere
      cases part with
      | nothing =>
          rw [select, List.mem_singleton]
          constructor
          · rintro rfl
            exact .nothing rest q
          · rintro ⟨⟩
            rfl
      | exact name =>
          rw [mem_select_exact]
          constructor
          · rintro ⟨hthere, hnext, h⟩
            exact .exact hthere hnext ((ih hnext).mp h)
          · rintro ⟨⟩
            next hthere hnext h => exact ⟨hthere, hnext, (ih hnext).mpr h⟩
      | wild pieces =>
          rw [mem_select_wild hsound hlocate]
          constructor
          · rintro ⟨name, hthere, hfits, hnext, h⟩
            exact .wild hthere hfits hnext ((ih hnext).mp h)
          · rintro ⟨⟩
            next name hfits hthere hnext h => exact ⟨name, hthere, hfits, hnext, (ih hnext).mpr h⟩
      | anyDepth =>
          have hnext {r : Path} (hdown : files.Descends p r) : files.isDirectory r = true :=
            hsound.isDirectory_of_descends hdown hhere
          rw [mem_select_anyDepth hsound hlocate hget]
          constructor
          · rintro ⟨r, hdown, h⟩
            exact .anyDepth hdown ((ih fun _ => hnext hdown).mp h)
          · rintro ⟨⟩
            next r hdown h => exact ⟨r, hdown, (ih fun _ => hnext hdown).mpr h⟩

/-- Where parts lead, all parts are names if those of the beginning are, and those that are asked for as
they are. -/
theorem Leads.isPart (h : Leads files parts p q) (hsound : files.Sound)
    (hparts : ∀ name, .exact name ∈ parts → Path.IsPart name)
    (hp : ∀ part ∈ p.parts, Path.IsPart part) : ∀ part ∈ q.parts, Path.IsPart part := by
  induction h with
  | stop p => exact hp
  | nothing rest p => exact hp
  | exact _ _ _ ih =>
      refine ih (fun name hname => hparts name (List.mem_cons_of_mem _ hname)) ?_
      exact List.forall_mem_append.mpr
        ⟨hp, List.forall_mem_singleton.mpr (hparts _ List.mem_cons_self)⟩
  | wild hthere _ _ _ ih =>
      refine ih (fun name hname => hparts name (List.mem_cons_of_mem _ hname)) ?_
      exact List.forall_mem_append.mpr
        ⟨hp, List.forall_mem_singleton.mpr (hsound.isPart_of_within? hthere)⟩
  | anyDepth hdown _ ih =>
      refine ih (fun name hname => hparts name (List.mem_cons_of_mem _ hname)) ?_
      exact hsound.isPart_of_descends hdown hp

/-- A pattern stands for the paths that its parts lead to. -/
theorem mem_expand_iff (hsound : files.Sound) {root : Path} {pattern : String} {paths : List Path}
    (h : expand files root pattern = .ok paths) :
    q ∈ paths ↔ files.isDirectory root = true ∧
      ∃ parts, parse pattern = .ok parts ∧ Leads files parts root q := by
  obtain ⟨parts, hparse, h⟩ := exists_of_bind_eq_ok h
  cases h
  split
  · next hdirectory =>
    rw [mem_select_iff hsound fun _ => hdirectory, hparse]
    simp [hdirectory]
  · next hnone => simp [hnone]

end Glob

end TypeTrace
