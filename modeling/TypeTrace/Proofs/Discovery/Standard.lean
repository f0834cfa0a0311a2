import TypeTrace.Config
import TypeTrace.Proofs.Discovery.Eligible

/-! # Searches by the standard patterns

By the patterns that hold by default a search finds all documents in the directory where it begins and
in all directories below, except through links to directories.
-/

namespace TypeTrace

variable {files : FileTree} {root p q : Path} {name : String}

namespace FileTree

theorem Sound.isDirectory_of_within? (hsound : files.Sound)
    (h : (files.within? p name).isSome = true) : files.isDirectory p = true := by
  obtain ⟨entry, hentry⟩ := Option.isSome_iff_exists.mp h
  unfold within? at hentry
  split at hentry
  · next place hlocate =>
    exact isDirectory_iff.mpr
      ⟨place, hlocate, hsound.directory_above (List.cons_ne_nil _ _) hentry⟩
  · cases hentry

/-- Where something is found below a path, the path leads to a directory. -/
theorem Sound.isDirectory_above (hsound : files.Sound) (hdown : files.Descends p q)
    (h : (files.within? q name).isSome = true) : files.isDirectory p = true := by
  cases hdown with
  | here => exact hsound.isDirectory_of_within? h
  | into hin => exact hsound.isDirectory_of_within? (Option.isSome_iff_exists.mpr ⟨_, hin⟩)

end FileTree

namespace Glob

theorem fits_chars (cs : List Char) : Fits (cs.map .char) cs := by
  induction cs with
  | nil => exact .nil
  | cons c cs ih => exact .one (beq_self_eq_true c) ih

theorem leads_anyDepth_wild {pieces : List Piece} :
    Leads files [.anyDepth, .wild pieces] root q ↔ ∃ directory name,
      files.Descends root directory ∧ (files.within? directory name).isSome = true ∧
        Fits pieces name.toList ∧ q = directory.child name := by
  constructor
  · intro h
    cases h with
    | anyDepth hdown h =>
        cases h with
        | wild hthere hfits _ h =>
            cases h
            exact ⟨_, _, hdown, hthere, hfits, rfl⟩
  · rintro ⟨directory, name, hdown, hthere, hfits, rfl⟩
    exact .anyDepth hdown (.wild hthere hfits (absurd rfl) (.stop _))

end Glob

namespace Discovery

open Noting

variable {limit : Int} {exclude : List Path}

/-- The pattern of all files, at any depth, that end so. -/
def patternFor (ending : String) : String := "**/*" ++ ending

theorem parse_patternFor : ∀ ending ∈ endings, Glob.parse (patternFor ending) =
    .ok [.anyDepth, .wild (.star :: ending.toList.map .char)] := by
  decide +kernel

theorem standard_patterns : Config.standard.patterns = endings.map patternFor := by
  decide +kernel

/-- The search that is made by default. -/
def standardSearch (root : Path) (limit : Int) (exclude : List Path) : Search :=
  ⟨root, Config.standard.patterns, limit, exclude⟩

/-- Something that has a name in a directory below another one, not through links to directories. -/
def Below (files : FileTree) (root p : Path) : Prop :=
  ∃ directory name, files.Descends root directory ∧
    (files.within? directory name).isSome = true ∧ p = directory.child name

theorem below_of_matches (h : Matches files (standardSearch root limit exclude) p) :
    Below files root p := by
  obtain ⟨-, pattern, hpattern, parts, hparse, hleads⟩ := h
  rw [standardSearch, standard_patterns] at hpattern
  obtain ⟨ending, hending, rfl⟩ := List.mem_map.mp hpattern
  rw [parse_patternFor ending hending] at hparse
  cases hparse
  obtain ⟨directory, name, hdown, hthere, -, rfl⟩ := Glob.leads_anyDepth_wild.mp hleads
  exact ⟨directory, name, hdown, hthere, rfl⟩

/-- What ends like a document is matched by the pattern for its ending. -/
theorem matches_of_below (hsound : files.Sound) (h : Below files root p)
    (hending : p.suffix ∈ endings) : Matches files (standardSearch root limit exclude) p := by
  obtain ⟨directory, name, hdown, hthere, rfl⟩ := h
  have hsome : ∀ ending ∈ endings, ending ≠ "" := by decide
  obtain ⟨front, hname⟩ := Path.exists_of_suffix (hsome _ hending)
  rw [Path.name_child] at hname
  have hfits : Glob.Fits (.star :: (directory.child name).suffix.toList.map .char) name.toList :=
    hname ▸ .star front (Glob.fits_chars _)
  refine ⟨hsound.isDirectory_above hdown hthere, patternFor (directory.child name).suffix, ?_, _,
    parse_patternFor _ hending, ?_⟩
  · rw [standardSearch, standard_patterns]
    exact List.mem_map_of_mem hending
  · exact Glob.leads_anyDepth_wild.mpr ⟨directory, name, hdown, hthere, hfits, rfl⟩

theorem usable_of_standard : ∀ pattern ∈ Config.standard.patterns, Glob.Usable pattern := by
  intro pattern hpattern
  rw [standard_patterns] at hpattern
  obtain ⟨ending, hending, rfl⟩ := List.mem_map.mp hpattern
  exact Glob.exists_parse_iff.mp ⟨_, parse_patternFor ending hending⟩

/-- The search that is made by default gives back, each once, the places of all eligible files below the
directory where it begins. -/
theorem standard_search_complete (hsound : files.Sound)
    (hsettled : ∀ p ∈ root :: exclude, files.settle p = .ok (files.resolve p)) (limit : Int) :
    ∃ noted documents, (run files (standardSearch root limit exclude)).Notes noted documents ∧
      documents.Nodup ∧ ∀ d, d ∈ documents ↔
        ∃ p, Below files root p ∧ Eligible files limit exclude p ∧ files.resolve p = d := by
  have hsearch : Searchable files (standardSearch root limit exclude) :=
    ⟨hsettled, usable_of_standard⟩
  refine ⟨_, _, notes_run hsearch, ?_, fun d => ?_⟩
  · exact (strict_documents hsound _).imp fun hlt heq => absurd (heq ▸ hlt) (lt_irrefl _)
  · rw [mem_documents, leadsTo_iff]
    simp only [reaches_iff hsound]
    constructor
    · rintro ⟨p, hp, heligible, hd⟩
      exact ⟨p, below_of_matches hp, heligible, hd⟩
    · rintro ⟨p, hp, heligible, hd⟩
      exact ⟨p, matches_of_below hsound hp heligible.ending, heligible, hd⟩

/-- A shop with documents in a hidden directory and further below, a link to a file and one to a
directory, and a file that is named like an ending. -/
def grove : FileTree where
  entries :=
    [(["far"], .directory),
     (["far", "away.gql"], .file []),
     (["far", "text"], .file []),
     (["shop"], .directory),
     (["shop", ".hidden"], .directory),
     (["shop", ".hidden", ".graphql"], .file []),
     (["shop", ".hidden", "a.gql"], .file []),
     (["shop", "deep"], .directory),
     (["shop", "deep", "er"], .directory),
     (["shop", "deep", "er", "b.graphql"], .file []),
     (["shop", "c.gql"], .link "/far/text"),
     (["shop", "far"], .link "/far")]
  current := ["shop"]

theorem standard_search_complete_in_grove : ∃ noted documents,
    (run grove (standardSearch (Path.ofText ".") 512 [])).Notes noted documents ∧
      documents.Nodup ∧
      (∀ d, d ∈ documents ↔ ∃ p, Below grove (Path.ofText ".") p ∧ Eligible grove 512 [] p ∧
        grove.resolve p = d) ∧
      ∀ d, d ∈ documents ↔ d ∈ [⟨.root, ["shop", "deep", "er", "b.graphql"]⟩,
        ⟨.root, ["far", "text"]⟩, ⟨.root, ["shop", ".hidden", "a.gql"]⟩] := by
  have hsound : grove.Sound := ⟨by decide, by decide, by decide, by decide⟩
  have hsettled : ∀ p ∈ [Path.ofText "."], grove.settle p = .ok (grove.resolve p) := by
    decide +kernel
  obtain ⟨noted, documents, hrun, hnodup, hall⟩ := standard_search_complete hsound hsettled 512
  refine ⟨noted, documents, hrun, hnodup, hall, fun d => ?_⟩
  have hfound : (found grove (standardSearch (Path.ofText ".") 512 [])).eraseDups =
      [⟨.root, ["shop", "deep", "er", "b.graphql"]⟩, ⟨.root, ["far", "text"]⟩,
        ⟨.root, ["shop", ".hidden", "a.gql"]⟩] := by decide +kernel
  rw [eq_documents_of_run (hrun []), Discovery.documents, mem_inOrder, ← hfound,
    List.mem_eraseDups]

end Discovery

end TypeTrace
