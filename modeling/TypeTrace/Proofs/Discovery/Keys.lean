import TypeTrace.Proofs.Canonical
import TypeTrace.Proofs.Discovery.Eligible

/-! # Texts that lead back

The text by which a path from a root is known, seen from any other path, leads from there back to it.
So the order of such texts is an order of the paths, and documents that are sorted by them stand in one
order, in whatever order they were met.
-/

namespace TypeTrace

namespace Discovery

open Workspace (larder larderSearch larderDocuments run_larder)

variable {files : FileTree} {search : Search} {met : List Path}

/-- A search gives back the documents that it meets in the order of their texts, whatever the order in
which they are met. -/
theorem inOrder_of_run (hsound : files.Sound) {start after : List Notice} {ds : List Path}
    (h : run files search start = .ok ds after) (hmet : ∀ d, d ∈ met ↔ d ∈ ds) :
    inOrder (files.resolve search.root) met = ds := by
  have hds := eq_documents_of_run h
  have hsame : ∀ d, d ∈ found files search ↔ d ∈ met := by
    intro d
    rw [hmet, hds, documents, mem_inOrder]
  rw [hds, documents_eq_inOrder hsound hsame]

/-- Seen from one path, the texts by which paths from a root are known lead back to them and tell them
apart. Therefore these texts put any such paths into one order, and so the documents of a search. -/
theorem keys_lead_back (root : Path) :
    (∀ p : Path, p.Rooted → root.join (.ofText (p.stableKey root)) = p) ∧
    (∀ p q : Path, p.Rooted → q.Rooted → p.stableKey root = q.stableKey root → p = q) ∧
    (∀ paths met : List Path, (∀ p ∈ paths, p.Rooted) → (∀ p, p ∈ paths ↔ p ∈ met) →
      inOrder root paths = inOrder root met) ∧
    ∀ (files : FileTree) (search : Search) (start after : List Notice) (ds met : List Path),
      files.Sound → files.resolve search.root = root → run files search start = .ok ds after →
      (∀ d, d ∈ met ↔ d ∈ ds) → inOrder root met = ds := by
  refine ⟨?_, ?_, ?_, ?_⟩
  · intro p hp
    exact hp.join_stableKey root
  · intro p q hp hq hsame
    exact hp.eq_of_stableKey hq hsame
  · intro paths met hpaths hmet
    exact inOrder_congr (distinguishes_rooted root hpaths) hmet
  · rintro files search start after ds met hsound rfl hrun hmet
    exact inOrder_of_run hsound hrun hmet

/-- Paths from both roots: one that goes down to the quay and back, the quay itself, one below a place
whose name begins like the quay's, and one below the place of the same name behind the other root. -/
def quayTexts : List String :=
  ["//shop/quay/../a.gql", "//shop/quay/", "//shop/quays/.//b.gql", "/shop/quay/c.gql"]

def quayPaths : List Path := quayTexts.map .ofText

/-- The quay, two ways to it that start elsewhere, the root, and the place where the program runs. -/
def quayRoots : List Path := ["//shop/quay", "shop/quay", "../quay", "/", ""].map .ofText

/-- The paths are seen from each of those places. The documents of a larder are met the other way round
first, and then once more. -/
theorem keys_lead_back_from_quay :
    (quayPaths.map fun p => p.stableKey (.ofText "//shop/quay")) =
      ["../a.gql", ".", "//shop/quays/b.gql", "/shop/quay/c.gql"] ∧
    (∀ root ∈ quayRoots,
      (∀ p ∈ quayPaths, p.Rooted ∧ root.join (.ofText (p.stableKey root)) = p) ∧
      (∀ p ∈ quayPaths, ∀ q ∈ quayPaths, p.stableKey root = q.stableKey root → p = q) ∧
      inOrder root quayPaths = inOrder root (quayPaths.reverse ++ quayPaths)) ∧
    ∃ after, run larder larderSearch [] = .ok larderDocuments after ∧
      inOrder ⟨.root, ["shop"]⟩ (larderDocuments.reverse ++ larderDocuments) =
        larderDocuments := by
  have hrooted : ∀ p ∈ quayPaths, p.Rooted := by
    intro p hp
    obtain ⟨text, htext, rfl⟩ := List.mem_map.mp hp
    have habsolute : ∀ text ∈ quayTexts, (Path.ofText text).isAbsolute = true := by decide +kernel
    exact ⟨habsolute text htext, text, rfl⟩
  refine ⟨by decide +kernel, ?_, ?_⟩
  · intro root _
    obtain ⟨hback, hapart, horder, -⟩ := keys_lead_back root
    refine ⟨?_, ?_, ?_⟩
    · intro p hp
      exact ⟨hrooted p hp, hback p (hrooted p hp)⟩
    · intro p hp q hq
      exact hapart p q (hrooted p hp) (hrooted q hq)
    · apply horder quayPaths _ hrooted
      simp
  · obtain ⟨after, hrun⟩ := run_larder []
    have hsound : larder.Sound := ⟨by decide, by decide, by decide, by decide⟩
    have hroot : larder.resolve larderSearch.root = ⟨.root, ["shop"]⟩ := by decide +kernel
    obtain ⟨-, -, -, hsearch⟩ := keys_lead_back ⟨.root, ["shop"]⟩
    refine ⟨after, hrun, hsearch larder larderSearch [] after _ _ hsound hroot hrun ?_⟩
    simp

end Discovery

end TypeTrace
