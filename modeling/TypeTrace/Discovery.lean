import TypeTrace.Files.Glob
import TypeTrace.Notice

/-!
# Finding documents

The documents of a workspace are the files that patterns stand for, have the ending of a document, are
not excluded and are not too large. Files are compared by the paths that they resolve to.
-/

namespace TypeTrace.Discovery

def endings : List String := [".graphql", ".gql"]

/-- What to look for: below which directory, by which patterns, up to which size in KB, and without
which files. -/
structure Search where
  root : Path
  patterns : List String
  limit : Int
  exclude : List Path

/-- Whether a path leads to a file and ends like a document. -/
def isCandidate (files : FileTree) (p : Path) : Bool := files.isFile p && endings.contains p.suffix

def isTooLarge (files : FileTree) (limit : Int) (p : Path) : Bool :=
  limit * 1024 < ((files.fileBytes? p).elim 0 List.length : Nat)

/-- Looks at a path that a pattern stands for. Gives the resolved path if it is a document. -/
def consider (files : FileTree) (limit : Int) (excluded : List Path) (p : Path) :
    Noting Glob.Fault (List Path) := do
  if !isCandidate files p then return []
  let resolved := files.resolve p
  if excluded.contains resolved then return []
  if isTooLarge files limit p then
    Noting.note (.tooLarge p.text limit)
    return []
  return [resolved]

/-- All documents that patterns lead to, in the order in which they are met. -/
def gather (files : FileTree) (search : Search) : Noting Glob.Fault (List Path) := do
  let excluded ← Noting.lift .path (search.exclude.mapM files.settle)
  let found ← search.patterns.mapM fun pattern => do
    let paths ← Noting.lift id (Glob.expand files search.root pattern)
    return (← paths.mapM (consider files search.limit excluded)).flatten
  return found.flatten

/-- Paths without repetition, by the texts that they are known by. -/
def inOrder (root : Path) (paths : List Path) : List Path :=
  paths.eraseDups.mergeSort fun p q => p.stableKey root ≤ q.stableKey root

def run (files : FileTree) (search : Search) : Noting Glob.Fault (List Path) := do
  let root ← Noting.lift .path (files.settle search.root)
  let documents := inOrder root (← gather files search)
  Noting.note (.discovered documents.length root.text)
  return documents

end TypeTrace.Discovery
