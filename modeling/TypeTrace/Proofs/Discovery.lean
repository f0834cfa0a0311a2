import Mathlib.Data.List.Sort
import Mathlib.Data.String.Basic
import TypeTrace.Discovery
import TypeTrace.Proofs.Files.Glob
import TypeTrace.Proofs.Files.Pattern
import TypeTrace.Proofs.Notice
import TypeTrace.Proofs.Results

/-! # What a search finds

A search finds the places of files, in the order of the texts by which they are known. Which places
it finds depends on the patterns as a set and on the files, and not on the order of either.
-/

namespace TypeTrace

namespace Discovery

open Noting

variable {files files' : FileTree} {search search' : Search} {limit : Int} {excluded : List Path}
  {p d : Path}

/-! ## Single paths -/

/-- The resolved path of a document that a search takes. -/
def admitted (files : FileTree) (limit : Int) (excluded : List Path) (p : Path) : List Path :=
  if isCandidate files p ∧ files.resolve p ∉ excluded ∧ ¬ isTooLarge files limit p then
    [files.resolve p]
  else []

/-- What is said of a document that a search does not take because of its size. -/
def warnings (files : FileTree) (limit : Int) (excluded : List Path) (p : Path) : List Notice :=
  if isCandidate files p ∧ files.resolve p ∉ excluded ∧ isTooLarge files limit p then
    [.tooLarge p.text limit]
  else []

theorem notes_consider (files : FileTree) (limit : Int) (excluded : List Path) (p : Path) :
    (consider files limit excluded p).Notes (warnings files limit excluded p)
      (admitted files limit excluded p) := by
  unfold consider warnings admitted
  by_cases hcandidate : isCandidate files p = true
  · by_cases hexcluded : files.resolve p ∈ excluded
    · simpa [hcandidate, hexcluded] using Notes.pure []
    · by_cases hlarge : isTooLarge files limit p = true
      · simp only [hcandidate, hexcluded, hlarge, List.contains_iff_mem, Bool.not_true,
          Bool.false_eq_true, if_false, if_true, not_true, and_false, not_false_eq_true, and_self]
        exact (Notes.note _).before (Notes.pure [])
      · simpa [hcandidate, hexcluded, hlarge] using Notes.pure [files.resolve p]
  · simpa [hcandidate] using Notes.pure []

theorem admitted_congr (h : files.Agrees files') :
    admitted files limit excluded p = admitted files' limit excluded p := by
  unfold admitted isCandidate isTooLarge FileTree.isFile
  rw [h.fileBytes?, h.resolve]

theorem mem_admitted : d ∈ admitted files limit excluded p ↔ isCandidate files p = true ∧
    files.resolve p ∉ excluded ∧ isTooLarge files limit p = false ∧ d = files.resolve p := by
  unfold admitted
  split
  · next h =>
    have hsmall := Bool.eq_false_of_not_eq_true h.2.2
    rw [List.mem_singleton]
    exact ⟨fun heq => ⟨h.1, h.2.1, hsmall, heq⟩, fun hd => hd.2.2.2⟩
  · next h =>
    refine ⟨fun hd => absurd hd List.not_mem_nil, fun hd => absurd ⟨hd.1, hd.2.1, ?_⟩ h⟩
    rw [hd.2.2.1]
    exact Bool.false_ne_true

/-- A document that a search takes is the place of a file, and none that is left out. -/
theorem exists_place_of_admitted (h : d ∈ admitted files limit excluded p) :
    (∃ place bytes, d = ⟨.root, place⟩ ∧ files.get? place = some (.file bytes)) ∧
      d ∉ excluded := by
  obtain ⟨hcandidate, hexcluded, -, rfl⟩ := mem_admitted.mp h
  refine ⟨?_, hexcluded⟩
  unfold isCandidate FileTree.isFile at hcandidate
  obtain ⟨bytes, hbytes⟩ := Option.isSome_iff_exists.mp (Bool.and_eq_true _ _ ▸ hcandidate).1
  obtain ⟨place, hplace, hget⟩ := FileTree.exists_place_of_fileBytes? hbytes
  exact ⟨place, bytes, hplace, hget⟩

/-! ## All paths -/

/-- The paths that the patterns of a search stand for, in the order in which they are met. A pattern
that is refused stands for none. -/
def reached (files : FileTree) (search : Search) : List Path :=
  search.patterns.flatMap fun pattern =>
    (Glob.expand files search.root pattern).toOption.getD []

/-- The documents that a search takes, as often as it meets them. -/
def found (files : FileTree) (search : Search) : List Path :=
  (reached files search).flatMap
    (admitted files search.limit (search.exclude.map files.resolve))

/-- The documents that a search finds. -/
def documents (files : FileTree) (search : Search) : List Path :=
  inOrder (files.resolve search.root) (found files search)

/-- What a search says. -/
def notices (files : FileTree) (search : Search) : List Notice :=
  (reached files search).flatMap
      (warnings files search.limit (search.exclude.map files.resolve)) ++
    [.discovered (documents files search).length (files.resolve search.root).text]

/-- A search that does not fail: where it begins and what it leaves out can be resolved, and all its
patterns can be used. -/
structure Searchable (files : FileTree) (search : Search) : Prop where
  settled : ∀ p ∈ search.root :: search.exclude, files.settle p = .ok (files.resolve p)
  usable : ∀ pattern ∈ search.patterns, Glob.Usable pattern

theorem mapM_settle {paths : List Path} (h : ∀ p ∈ paths, files.settle p = .ok (files.resolve p)) :
    paths.mapM files.settle = .ok (paths.map files.resolve) := by
  induction paths with
  | nil => rfl
  | cons p paths ih =>
      have ⟨hp, hpaths⟩ := List.forall_mem_cons.mp h
      rw [List.mapM_cons, hp, ih hpaths]
      rfl

theorem notes_gather (h : Searchable files search) :
    (gather files search).Notes
      ((reached files search).flatMap
        (warnings files search.limit (search.exclude.map files.resolve)))
      (found files search) := by
  have ⟨_, hexclude⟩ := List.forall_mem_cons.mp h.settled
  have hfound : found files search = (search.patterns.map fun pattern =>
      (((Glob.expand files search.root pattern).toOption.getD []).map
        (admitted files search.limit (search.exclude.map files.resolve))).flatten).flatten := by
    rw [found, reached, List.flatMap_assoc, List.flatMap_def]
    rfl
  rw [hfound, reached, List.flatMap_assoc]
  unfold gather
  refine (Notes.lift Glob.Fault.path (mapM_settle hexclude)).after ?_
  refine (Notes.mapM fun pattern hpattern => ?_).before (Notes.pure _)
  obtain ⟨paths, hpaths⟩ : ∃ paths, Glob.expand files search.root pattern = .ok paths :=
    Glob.exists_expand_iff.mpr (h.usable pattern hpattern)
  rw [hpaths]
  refine (Notes.lift id rfl).after ?_
  exact (Notes.mapM fun p _ => notes_consider files _ _ p).before (Notes.pure _)

/-- What a search gives back and says. -/
theorem notes_run (h : Searchable files search) :
    (run files search).Notes (notices files search) (documents files search) := by
  have ⟨hroot, _⟩ := List.forall_mem_cons.mp h.settled
  unfold run
  refine (Notes.lift Glob.Fault.path hroot).after ?_
  refine (notes_gather h).bind ?_
  exact (Notes.note _).before (Notes.pure _)

theorem searchable_of_run {start after : List Notice} {ds : List Path}
    (h : run files search start = .ok ds after) : Searchable files search := by
  obtain ⟨root, s, hroot, h⟩ := Stateful.exists_of_bind_eq_ok h
  obtain ⟨found, t, hgather, -⟩ := Stateful.exists_of_bind_eq_ok h
  obtain ⟨excluded, s', hexcluded, h⟩ := Stateful.exists_of_bind_eq_ok hgather
  obtain ⟨lists, t', hlists, -⟩ := Stateful.exists_of_bind_eq_ok h
  have hexcluded := forall₂_of_mapM (lift_eq_ok.mp hexcluded).1
  constructor
  · have hself {p q : Path} (hp : files.settle p = .ok q) :
        files.settle p = .ok (files.resolve p) := by rw [hp, FileTree.resolve_of_settle hp]
    refine List.forall_mem_cons.mpr ⟨hself (lift_eq_ok.mp hroot).1, fun p hp => ?_⟩
    obtain ⟨resolved, -, hresolved⟩ := exists_of_mem_left hexcluded hp
    exact hself hresolved
  · intro pattern hpattern
    obtain ⟨s, taken, u, htaken⟩ := Stateful.exists_of_mapM_eq_ok hlists hpattern
    obtain ⟨paths, v, hpaths, -⟩ := Stateful.exists_of_bind_eq_ok htaken
    exact Glob.exists_expand_iff.mp ⟨paths, (lift_eq_ok.mp hpaths).1⟩

/-- Why a search fails: a path that it begins at or leaves out cannot be resolved, or one of its patterns
is refused. -/
inductive Hindered (files : FileTree) (search : Search) : Glob.Fault → Prop where
  | unsettled {p : Path} {fault : PathFault} (hp : p ∈ search.root :: search.exclude)
      (h : files.settle p = .error fault) : Hindered files search (.path fault)
  | refused {pattern : String} {fault : Glob.Fault} (hpattern : pattern ∈ search.patterns)
      (h : Glob.expand files search.root pattern = .error fault) : Hindered files search fault

theorem hindered_of_run {start after : List Notice} {fault : Glob.Fault}
    (h : run files search start = .error fault after) : Hindered files search fault := by
  rcases Stateful.of_bind_eq_error h with h | ⟨root, s, -, h⟩
  · obtain ⟨cause, hsettle, rfl⟩ := lift_eq_error h
    exact .unsettled List.mem_cons_self hsettle
  rcases Stateful.of_bind_eq_error h with h | ⟨found, t, -, h⟩
  case inr => cases h
  rcases Stateful.of_bind_eq_error h with h | ⟨excluded, s', -, h⟩
  · obtain ⟨cause, hexclude, rfl⟩ := lift_eq_error h
    obtain ⟨p, hp, hsettle⟩ := exists_of_mapM_eq_error hexclude
    exact .unsettled (List.mem_cons_of_mem _ hp) hsettle
  rcases Stateful.of_bind_eq_error h with h | ⟨lists, t', -, h⟩
  case inr => cases h
  obtain ⟨pattern, hpattern, s, u, h⟩ := Stateful.exists_of_mapM_eq_error h
  rcases Stateful.of_bind_eq_error h with h | ⟨paths, v, -, h⟩
  · obtain ⟨cause, hexpand, rfl⟩ := lift_eq_error h
    exact .refused hpattern hexpand
  -- To look at a path that a pattern stands for does not fail.
  have htaken : (paths.mapM (consider files search.limit excluded)).Notes _ _ :=
    Notes.mapM fun p _ => notes_consider files search.limit excluded p
  rw [Stateful.bind_ok (htaken v)] at h
  cases h

/-- A search reaches a path if one of its patterns stands for it. -/
def Reaches (files : FileTree) (search : Search) (p : Path) : Prop :=
  ∃ pattern ∈ search.patterns, ∃ paths,
    Glob.expand files search.root pattern = .ok paths ∧ p ∈ paths

theorem mem_reached : p ∈ reached files search ↔ Reaches files search p := by
  unfold reached Reaches
  rw [List.mem_flatMap]
  refine exists_congr fun pattern => and_congr_right fun _ => ?_
  cases Glob.expand files search.root pattern <;> simp [Except.toOption]

/-- A search leads to a document if it takes a path that it reaches. -/
def LeadsTo (files : FileTree) (search : Search) (d : Path) : Prop :=
  ∃ p, Reaches files search p ∧ d ∈ admitted files search.limit (search.exclude.map files.resolve) p

theorem mem_found : d ∈ found files search ↔ LeadsTo files search d := by
  unfold found LeadsTo
  rw [List.mem_flatMap]
  exact exists_congr fun p => and_congr_left fun _ => mem_reached

/-- All documents that a search leads to are places of files, and none is left out. -/
theorem LeadsTo.exists_place (h : LeadsTo files search d) :
    (∃ place bytes, d = ⟨.root, place⟩ ∧ files.get? place = some (.file bytes)) ∧
      d ∉ search.exclude.map files.resolve := by
  obtain ⟨_, _, hd⟩ := h
  exact exists_place_of_admitted hd

/-- Two searches with the same patterns, through the same entries. -/
structure Similar (files files' : FileTree) (search search' : Search) : Prop where
  entries : files.Shuffled files'
  sound : files.Sound
  patterns : ∀ pattern, pattern ∈ search.patterns ↔ pattern ∈ search'.patterns
  root : search.root = search'.root
  limit : search.limit = search'.limit
  exclude : search.exclude = search'.exclude

theorem Similar.reaches (h : Similar files files' search search') (hp : Reaches files search p) :
    Reaches files' search' p := by
  obtain ⟨pattern, hpattern, paths, hpaths, hp⟩ := hp
  obtain ⟨paths', hpaths', hsame⟩ := Glob.mem_expand h.entries h.sound hpaths
  rw [h.root] at hpaths'
  exact ⟨pattern, (h.patterns pattern).mp hpattern, paths', hpaths', (hsame p).mp hp⟩

theorem Similar.leadsTo (h : Similar files files' search search') (hd : LeadsTo files search d) :
    LeadsTo files' search' d := by
  obtain ⟨p, hp, hd⟩ := hd
  have hagrees := h.entries.agrees h.sound
  rw [admitted_congr hagrees, h.limit, h.exclude, funext hagrees.resolve] at hd
  exact ⟨p, h.reaches hp, hd⟩

theorem Similar.searchable (h : Similar files files' search search')
    (hsearch : Searchable files search) : Searchable files' search' := by
  constructor
  · intro p hp
    rw [← h.root, ← h.exclude] at hp
    have hagrees := h.entries.agrees h.sound
    rw [← hagrees.settle, ← hagrees.resolve]
    exact hsearch.settled p hp
  · intro pattern hpattern
    exact hsearch.usable pattern ((h.patterns pattern).mpr hpattern)

/-! ## Order -/

variable {root : Path} {paths paths' : List Path}

theorem nodup_eraseDups (paths : List Path) : paths.eraseDups.Nodup := by
  induction hlength : paths.length using Nat.strongRecOn generalizing paths with
  | ind n ih =>
      cases paths with
      | nil => simp
      | cons p paths =>
          have hfewer : (paths.filter fun q => !q == p).length < n :=
            Nat.lt_of_le_of_lt (List.length_filter_le _ _) (by simp at hlength; omega)
          rw [List.eraseDups_cons, List.nodup_cons]
          exact ⟨by simp, ih _ hfewer _ rfl⟩

theorem mem_inOrder {p : Path} : p ∈ inOrder root paths ↔ p ∈ paths := by
  rw [inOrder, (List.mergeSort_perm _ _).mem_iff, List.mem_eraseDups]

/-- The texts by which paths are known tell them apart. -/
def Distinguishes (root : Path) (paths : List Path) : Prop :=
  ∀ p ∈ paths, ∀ q ∈ paths, p.stableKey root = q.stableKey root → p = q

theorem distinguishes_rooted (root : Path) (h : ∀ p ∈ paths, p.Rooted) :
    Distinguishes root paths := by
  intro p hp q hq hsame
  exact (h p hp).eq_of_stableKey (h q hq) hsame

theorem pairwise_inOrder (root : Path) (paths : List Path) :
    (inOrder root paths).Pairwise fun p q => p.stableKey root ≤ q.stableKey root := by
  have hsorted := @List.pairwise_mergeSort _
    (fun p q : Path => decide (p.stableKey root ≤ q.stableKey root))
    (by simpa using fun p q r => le_trans) (by simpa using fun p q => le_total _ _)
    paths.eraseDups
  simpa [inOrder] using hsorted

/-- Paths that their texts tell apart are in the strict order of these texts. -/
theorem strict_inOrder (h : Distinguishes root paths) :
    (inOrder root paths).Pairwise fun p q => p.stableKey root < q.stableKey root := by
  have hnodup : (inOrder root paths).Pairwise (· ≠ ·) :=
    (List.mergeSort_perm _ _).nodup_iff.mpr (nodup_eraseDups paths)
  refine ((pairwise_inOrder root paths).and hnodup).imp_of_mem fun {p q} hp hq hpq => ?_
  refine lt_of_le_of_ne hpq.1 fun heq => hpq.2 ?_
  exact h p (mem_inOrder.mp hp) q (mem_inOrder.mp hq) heq

/-- The order of paths that their texts tell apart depends on nothing but which paths they are. -/
theorem inOrder_congr (h : Distinguishes root paths) (hsame : ∀ p, p ∈ paths ↔ p ∈ paths') :
    inOrder root paths = inOrder root paths' := by
  have hperm : (inOrder root paths).Perm (inOrder root paths') := by
    refine (List.mergeSort_perm _ _).trans (.trans ?_ (List.mergeSort_perm _ _).symm)
    rw [List.perm_ext_iff_of_nodup (nodup_eraseDups _) (nodup_eraseDups _)]
    simpa using hsame
  refine hperm.eq_of_pairwise ?_ (pairwise_inOrder root paths) (pairwise_inOrder root paths')
  intro p q hp hq hpq hqp
  exact h p (mem_inOrder.mp hp) q ((hsame q).mpr (mem_inOrder.mp hq)) (le_antisymm hpq hqp)

/-! ## Searches -/

theorem LeadsTo.rooted (h : LeadsTo files search d) (hsound : files.Sound) : d.Rooted := by
  obtain ⟨⟨place, _, rfl, hplace⟩, -⟩ := h.exists_place
  exact hsound.rooted hplace

/-- What a search finds is the documents that it leads to, each once and in strict order. -/
theorem mem_documents : d ∈ documents files search ↔ LeadsTo files search d :=
  mem_inOrder.trans mem_found

theorem distinguishes_found (hsound : files.Sound) (search : Search) :
    Distinguishes (files.resolve search.root) (found files search) :=
  distinguishes_rooted _ fun _ hd => (mem_found.mp hd).rooted hsound

theorem strict_documents (hsound : files.Sound) (search : Search) :
    (documents files search).Pairwise fun p q =>
      p.stableKey (files.resolve search.root) < q.stableKey (files.resolve search.root) :=
  strict_inOrder (distinguishes_found hsound search)

/-- The order of what a search finds does not depend on how often and in which order it is met. -/
theorem documents_eq_inOrder (hsound : files.Sound)
    (hsame : ∀ d, d ∈ found files search ↔ d ∈ paths) :
    documents files search = inOrder (files.resolve search.root) paths :=
  inOrder_congr (distinguishes_found hsound search) hsame

theorem run_eq_ok (hsound : files.Sound) {start after : List Notice} {ds : List Path}
    (h : run files search start = .ok ds after) :
    (∀ d, d ∈ ds ↔ LeadsTo files search d) ∧
      ds.Pairwise fun p q =>
        p.stableKey (files.resolve search.root) < q.stableKey (files.resolve search.root) := by
  rw [notes_run (searchable_of_run h)] at h
  cases h
  exact ⟨fun d => mem_documents, strict_documents hsound search⟩

/-- Searches with the same patterns through the same entries give back the same documents. -/
theorem Similar.entails (h : Similar files files' search search')
    (h' : Similar files' files search' search) :
    Entails (run files search) (run files' search') := by
  intro start ds after hrun start'
  have hsearch := searchable_of_run hrun
  rw [notes_run hsearch] at hrun
  cases hrun
  have hsame : ∀ d, d ∈ found files search ↔ d ∈ found files' search' := fun d =>
    mem_found.trans (.trans ⟨h.leadsTo, h'.leadsTo⟩ mem_found.symm)
  have hdocuments : documents files search = documents files' search' := by
    rw [documents_eq_inOrder h.sound hsame, h.root, (h.entries.agrees h.sound).resolve, documents]
  rw [hdocuments]
  exact ⟨_, notes_run (h.searchable hsearch) start'⟩

end Discovery

end TypeTrace
