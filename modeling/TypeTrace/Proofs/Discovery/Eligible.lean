import TypeTrace.Proofs.Discovery
import TypeTrace.Proofs.Files.Matching

/-! # Documents that are eligible

A search gives back the places of all files that it is to find, and of no others. What it passes over
although it is a document by its name is left out as the search says, or named in a notice.
-/

namespace TypeTrace.Discovery

open Noting

variable {files : FileTree} {search other : Search} {limit : Int} {exclude : List Path} {p q d : Path}

/-! ## Files -/

/-- A path of which a search takes the file: the file is not too large, the path ends like a document,
and it resolves to none that is left out. -/
structure Eligible (files : FileTree) (limit : Int) (exclude : List Path) (p : Path) : Prop where
  file : ∃ bytes, files.fileBytes? p = some bytes ∧ (bytes.length : Int) ≤ limit * 1024
  ending : p.suffix ∈ endings
  included : files.resolve p ∉ exclude.map files.resolve

theorem isCandidate_iff : isCandidate files p = true ↔
    (∃ bytes, files.fileBytes? p = some bytes) ∧ p.suffix ∈ endings := by
  rw [isCandidate, Bool.and_eq_true, FileTree.isFile, Option.isSome_iff_exists,
    List.contains_iff_mem]

theorem isTooLarge_iff {bytes : List UInt8} (h : files.fileBytes? p = some bytes) :
    isTooLarge files limit p = true ↔ limit * 1024 < bytes.length := by
  rw [isTooLarge, h, Option.elim_some, decide_eq_true_iff]

theorem eligible_iff : Eligible files limit exclude p ↔ isCandidate files p = true ∧
    files.resolve p ∉ exclude.map files.resolve ∧ isTooLarge files limit p = false := by
  rw [isCandidate_iff]
  constructor
  · rintro ⟨⟨bytes, hbytes, hsize⟩, hending, hincluded⟩
    refine ⟨⟨⟨bytes, hbytes⟩, hending⟩, hincluded, Bool.eq_false_iff.mpr fun hlarge => ?_⟩
    have hover := (isTooLarge_iff hbytes).mp hlarge
    omega
  · rintro ⟨⟨⟨bytes, hbytes⟩, hending⟩, hincluded, hsmall⟩
    have hsize : ¬ isTooLarge files limit p = true := Bool.eq_false_iff.mp hsmall
    rw [isTooLarge_iff hbytes] at hsize
    exact ⟨⟨bytes, hbytes, Int.not_lt.mp hsize⟩, hending, hincluded⟩

theorem mem_admitted_iff : d ∈ admitted files limit (exclude.map files.resolve) p ↔
    Eligible files limit exclude p ∧ files.resolve p = d := by
  rw [mem_admitted, eligible_iff, and_assoc, and_assoc, eq_comm (a := d)]

theorem leadsTo_iff : LeadsTo files search d ↔
    ∃ p, Reaches files search p ∧ Eligible files search.limit search.exclude p ∧
      files.resolve p = d := by
  simp only [LeadsTo, mem_admitted_iff]

/-- Paths that resolve to one place lead to one file. -/
theorem fileBytes?_eq_of_resolve {bytes bytes' : List UInt8} (hp : files.fileBytes? p = some bytes)
    (hq : files.fileBytes? q = some bytes') (h : files.resolve p = files.resolve q) :
    bytes = bytes' := by
  obtain ⟨place, hplace, hget⟩ := FileTree.exists_place_of_fileBytes? hp
  obtain ⟨place', hplace', hget'⟩ := FileTree.exists_place_of_fileBytes? hq
  rw [hplace, hplace'] at h
  cases h
  rw [hget] at hget'
  cases hget'
  rfl

/-! ## Patterns -/

/-- A search matches a path if one of its patterns leads to it from the directory where the search
begins. -/
def Matches (files : FileTree) (search : Search) (p : Path) : Prop :=
  files.isDirectory search.root = true ∧ ∃ pattern ∈ search.patterns, ∃ parts,
    Glob.parse pattern = .ok parts ∧ Glob.Leads files parts search.root p

theorem reaches_iff (hsound : files.Sound) : Reaches files search p ↔ Matches files search p := by
  constructor
  · rintro ⟨pattern, hpattern, paths, hpaths, hp⟩
    obtain ⟨hdirectory, parts, hparse, hleads⟩ := (Glob.mem_expand_iff hsound hpaths).mp hp
    exact ⟨hdirectory, pattern, hpattern, parts, hparse, hleads⟩
  · rintro ⟨hdirectory, pattern, hpattern, parts, hparse, hleads⟩
    obtain ⟨paths, hpaths⟩ := Glob.exists_expand_iff.mpr (Glob.exists_parse_iff.mp ⟨parts, hparse⟩)
    exact ⟨pattern, hpattern, paths, hpaths,
      (Glob.mem_expand_iff hsound hpaths).mpr ⟨hdirectory, parts, hparse, hleads⟩⟩

theorem Matches.isPart (h : Matches files search p) (hsound : files.Sound)
    (hroot : ∀ part ∈ search.root.parts, Path.IsPart part) : ∀ part ∈ p.parts, Path.IsPart part := by
  obtain ⟨-, pattern, -, parts, hparse, hleads⟩ := h
  exact hleads.isPart hsound (fun name hname => Glob.isPart_of_parse hparse hname) hroot

/-! ## Notices -/

theorem tooLarge_mem_notices {text : String} {size : Int} :
    .tooLarge text size ∈ notices files search ↔ ∃ p, Reaches files search p ∧
      (isCandidate files p = true ∧ files.resolve p ∉ search.exclude.map files.resolve ∧
        isTooLarge files search.limit p = true) ∧ text = p.text ∧ size = search.limit := by
  unfold notices warnings
  rw [List.mem_append, List.mem_flatMap]
  constructor
  · rintro (⟨p, hp, hnotice⟩ | hnotice)
    · split at hnotice
      · next hlarge =>
        cases List.mem_singleton.mp hnotice
        exact ⟨p, mem_reached.mp hp, hlarge, rfl, rfl⟩
      · cases hnotice
    · cases List.mem_singleton.mp hnotice
  · rintro ⟨p, hp, hlarge, rfl, rfl⟩
    refine Or.inl ⟨p, mem_reached.mpr hp, ?_⟩
    rw [if_pos hlarge]
    exact List.mem_singleton_self _

/-- What is named in a notice is not found under another name: the size belongs to the file. -/
theorem not_leadsTo_of_tooLarge (hcandidate : isCandidate files p = true)
    (hlarge : isTooLarge files search.limit p = true) :
    ¬ LeadsTo files search (files.resolve p) := by
  intro hleads
  obtain ⟨q, -, ⟨⟨bytes, hbytes, hsize⟩, -, -⟩, hsame⟩ := leadsTo_iff.mp hleads
  obtain ⟨⟨bytes', hbytes'⟩, -⟩ := isCandidate_iff.mp hcandidate
  have hover := (isTooLarge_iff hbytes').mp hlarge
  rw [fileBytes?_eq_of_resolve hbytes' hbytes hsame.symm] at hover
  omega

/-! ## What is found -/

/-- Documents and notices that account for all paths that a search matches. -/
structure Accounts (files : FileTree) (search : Search) (documents : List Path)
    (noted : List Notice) : Prop where
  found : ∀ d, d ∈ documents ↔ ∃ p, Matches files search p ∧
    Eligible files search.limit search.exclude p ∧ files.resolve p = d
  strict : documents.Pairwise fun p q =>
    p.stableKey (files.resolve search.root) < q.stableKey (files.resolve search.root)
  passed : ∀ p, Matches files search p → files.isFile p = true → p.suffix ∈ endings →
    files.resolve p ∈ search.exclude.map files.resolve ∨ files.resolve p ∈ documents ∨
      .tooLarge p.text search.limit ∈ noted
  apart : ∀ text size, .tooLarge text size ∈ noted →
    Matches files search (Path.ofText text) ∧ files.resolve (Path.ofText text) ∉ documents

theorem accounts (hsound : files.Sound)
    (hroot : ∀ part ∈ search.root.parts, Path.IsPart part) :
    Accounts files search (documents files search) (notices files search) where
  found d := by
    rw [mem_documents, leadsTo_iff]
    simp only [reaches_iff hsound]
  strict := strict_documents hsound search
  passed p hp hfile hending := by
    have hp := (reaches_iff hsound).mpr hp
    have hcandidate : isCandidate files p = true := by
      rw [isCandidate, hfile, Bool.true_and, List.contains_iff_mem]
      exact hending
    by_cases hexcluded : files.resolve p ∈ search.exclude.map files.resolve
    · exact Or.inl hexcluded
    · cases hlarge : isTooLarge files search.limit p with
      | false =>
          have heligible := eligible_iff.mpr ⟨hcandidate, hexcluded, hlarge⟩
          exact Or.inr (Or.inl (mem_documents.mpr (leadsTo_iff.mpr ⟨p, hp, heligible, rfl⟩)))
      | true =>
          exact Or.inr (Or.inr (tooLarge_mem_notices.mpr
            ⟨p, hp, ⟨hcandidate, hexcluded, hlarge⟩, rfl, rfl⟩))
  apart text size hnotice := by
    obtain ⟨p, hp, ⟨hcandidate, -, hlarge⟩, rfl, -⟩ := tooLarge_mem_notices.mp hnotice
    have hmatches := (reaches_iff hsound).mp hp
    rw [Path.ofText_text (hmatches.isPart hsound hroot), mem_documents]
    exact ⟨hmatches, not_leadsTo_of_tooLarge hcandidate hlarge⟩

/-! ## Wider searches -/

/-- Another search begins at the same directory, has all patterns of the first one, takes files of the
same size, and leaves out nothing more. -/
structure Widens (files : FileTree) (search other : Search) : Prop where
  root : search.root = other.root
  patterns : search.patterns ⊆ other.patterns
  limit : search.limit ≤ other.limit
  exclude : other.exclude.map files.resolve ⊆ search.exclude.map files.resolve

theorem Widens.leadsTo (h : Widens files search other) (hd : LeadsTo files search d) :
    LeadsTo files other d := by
  obtain ⟨p, ⟨pattern, hpattern, paths, hpaths, hp⟩, heligible, rfl⟩ := leadsTo_iff.mp hd
  obtain ⟨⟨bytes, hbytes, hsize⟩, hending, hincluded⟩ := heligible
  have hlimit := h.limit
  rw [h.root] at hpaths
  exact leadsTo_iff.mpr ⟨p, ⟨pattern, h.patterns hpattern, paths, hpaths, hp⟩,
    ⟨⟨bytes, hbytes, by omega⟩, hending, fun hmem => hincluded (h.exclude hmem)⟩, rfl⟩

theorem Widens.documents_subset (h : Widens files search other) :
    documents files search ⊆ documents files other :=
  fun _ hd => mem_documents.mpr (h.leadsTo (mem_documents.mp hd))

/-- Searches of which each is wider than the other one find the same. -/
theorem Widens.documents_eq (h : Widens files search other) (h' : Widens files other search)
    (hsound : files.Sound) : documents files search = documents files other := by
  have hsame : ∀ d, d ∈ found files search ↔ d ∈ found files other := fun d =>
    mem_found.trans (.trans ⟨h.leadsTo, h'.leadsTo⟩ mem_found.symm)
  rw [documents_eq_inOrder hsound hsame, h.root, documents]

theorem eq_documents_of_run {start after : List Notice} {ds : List Path}
    (h : run files search start = .ok ds after) : ds = documents files search := by
  rw [notes_run (searchable_of_run h)] at h
  cases h
  rfl

/-- A search by patterns that can be used gives back exactly the eligible documents and accounts for all
others. A wider search finds all of them, and one that differs in nothing but how it says what to leave
out finds the same. -/
theorem eligible_documents_found (hsound : files.Sound)
    (hroot : ∀ part ∈ search.root.parts, Path.IsPart part)
    (hpatterns : ∀ pattern ∈ search.patterns, Glob.Usable pattern)
    (hsettled : ∀ p ∈ search.root :: search.exclude, files.settle p = .ok (files.resolve p)) :
    ∃ noted documents, (run files search).Notes noted documents ∧
      Accounts files search documents noted ∧
      ∀ other start after ds, run files other start = .ok ds after → Widens files search other →
        documents ⊆ ds ∧ (Widens files other search → documents = ds) := by
  refine ⟨_, _, notes_run ⟨hsettled, hpatterns⟩, accounts hsound hroot, ?_⟩
  intro other start after ds hrun hwidens
  rw [eq_documents_of_run hrun]
  exact ⟨hwidens.documents_subset, fun hback => hwidens.documents_eq hback hsound⟩

/-- A shop with a document, one that is too large, a link to each of them, and one that is left out by way
of a link. -/
def cellar : FileTree where
  entries :=
    [(["shop"], .directory),
     (["shop", "a.gql"], .file "{ a }".toUTF8.toList),
     (["shop", "b.gql"], .link "a.gql"),
     (["shop", "large.gql"], .file (.replicate 1025 32)),
     (["shop", "more.gql"], .link "/shop/large.gql"),
     (["shop", "old"], .directory),
     (["shop", "old", "types.graphql"], .file "type Query { a: Query }".toUTF8.toList),
     (["shop", "types"], .link "old/types.graphql")]
  current := ["shop"]

def cellarSearch : Search :=
  ⟨Path.ofText ".", ["*.gql", "**/*.graphql"], 1, [Path.ofText "types"]⟩

theorem eligible_documents_found_in_cellar : ∃ noted ds,
    (run cellar cellarSearch).Notes noted ds ∧ Accounts cellar cellarSearch ds noted ∧
      ds = [⟨.root, ["shop", "a.gql"]⟩] ∧
      noted = [.tooLarge "large.gql" 1, .tooLarge "more.gql" 1, .discovered 1 "/shop"] := by
  have hsound : cellar.Sound := ⟨by decide, by decide, by decide, by decide⟩
  have hroot : ∀ part ∈ cellarSearch.root.parts, Path.IsPart part := by decide
  have hpatterns : ∀ pattern ∈ cellarSearch.patterns, Glob.Usable pattern := by
    have hread : ∀ pattern ∈ cellarSearch.patterns, (Glob.parse pattern).isOk = true := by
      decide +kernel
    exact fun pattern hpattern => Glob.exists_parse_iff.mp (exists_of_isOk (hread pattern hpattern))
  have hsettled : ∀ p ∈ cellarSearch.root :: cellarSearch.exclude,
      cellar.settle p = .ok (cellar.resolve p) := by decide +kernel
  obtain ⟨noted, ds, hrun, haccounts, -⟩ :=
    eligible_documents_found hsound hroot hpatterns hsettled
  refine ⟨noted, ds, hrun, haccounts, ?_⟩
  obtain ⟨rfl, rfl⟩ := hrun.unique (notes_run ⟨hsettled, hpatterns⟩)
  -- The document is met under its own name, and under that of the link.
  have hfound : (found cellar cellarSearch).eraseDups = [⟨.root, ["shop", "a.gql"]⟩] := by
    decide +kernel
  have hdocuments : documents cellar cellarSearch = [⟨.root, ["shop", "a.gql"]⟩] := by
    rw [documents, inOrder, hfound, List.mergeSort_singleton]
  refine ⟨hdocuments, ?_⟩
  rw [notices, hdocuments]
  decide +kernel

end TypeTrace.Discovery
