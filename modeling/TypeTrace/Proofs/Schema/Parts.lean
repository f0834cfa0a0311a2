import TypeTrace.Proofs.Stateful
import TypeTrace.Proofs.Token.Joined
import TypeTrace.Schema.Load

/-! # Schemas in parts

A schema that is spread over files is built from one text, in which the tokens of the files come one
after the other. The boundary of two files neither merges tokens nor hides any.
-/

namespace TypeTrace.Schema

variable {files : FileTree} {paths : List Path} {parts : List String}

/-- What is built is built from the texts of the files, one below the other. -/
theorem load_of_parts (hpaths : paths ≠ []) (hparts : paths.mapM (readPart files) = .ok parts)
    (start : List Notice) :
    load files paths start =
      match ofText (joinParts parts) with
      | .ok schema => .ok schema (start ++ [.schemaBuilt paths.length schema.types.length])
      | .error fault => .error (.invalid paths (joinParts parts) fault) start := by
  have hsome : ¬ paths.isEmpty = true := by simpa using hpaths
  have hlift : (Noting.lift id (.ok parts) : Noting LoadFault _) start = .ok parts start := rfl
  unfold load
  rw [if_neg hsome, hparts]
  dsimp only
  rw [Stateful.bind_ok hlift]
  cases ofText (joinParts parts) <;> rfl

theorem mapM_readPart
    (h : List.Forall₂ (fun path part => files.readText path = .ok part) paths parts) :
    paths.mapM (readPart files) = .ok parts := by
  refine mapM_of_forall₂ (h.imp fun path part hread => ?_)
  rw [readPart, hread]
  rfl

/-- The text from which a schema is built has the tokens of its files in order, and no others. -/
theorem parts_keep_tokens {tokens : List (List Token)} (hpaths : paths ≠ [])
    (hread : List.Forall₂ (fun path part => files.readText path = .ok part) paths parts)
    (htokens : List.Forall₂ (fun part own => (TokenStream.ofText part).tokens = .ok own) parts
      tokens) :
    (∀ start, load files paths start =
      match ofText (joinParts parts) with
      | .ok schema => .ok schema (start ++ [.schemaBuilt paths.length schema.types.length])
      | .error fault => .error (.invalid paths (joinParts parts) fault) start) ∧
    ∃ all, (TokenStream.ofText (joinParts parts)).tokens = .ok all ∧
      all.map Token.content = tokens.flatten.map Token.content := by
  have hparts : parts ≠ [] := by
    rintro rfl
    cases hread
    exact hpaths rfl
  have hlexes : List.Forall₂ (fun part contents => Lexes false part.toList contents) parts
      (tokens.map (List.map Token.content)) := by
    rw [List.forall₂_map_right_iff]
    exact htokens.imp fun part own hown => TokenStream.lexes_ofText.mpr ⟨own, hown, rfl⟩
  refine ⟨load_of_parts hpaths (mapM_readPart hread), ?_⟩
  rw [List.map_flatten]
  exact TokenStream.lexes_ofText.mp (.intercalate hparts hlexes)

/-- Files that end in a comment, in nothing, in a number and in a string, and one that begins with a
byte order mark: without line ends between them, none would keep its tokens. -/
def quarry : FileTree where
  entries :=
    [(["quarry"], .directory),
     (["quarry", "a"], .file "scalar A # dust".toUTF8.toList),
     (["quarry", "b"], .file "\ufeffscalar".toUTF8.toList),
     (["quarry", "c"], .file []),
     (["quarry", "d"], .file "B 1".toUTF8.toList),
     (["quarry", "e"], .file "2 \"\"".toUTF8.toList),
     (["quarry", "f"], .file "\"stone\" type C".toUTF8.toList)]
  current := ["quarry"]

theorem parts_keep_tokens_in_quarry :
    let paths := ["a", "b", "c", "d", "e", "f"].map Path.ofText
    ∃ parts tokens, paths ≠ [] ∧
      List.Forall₂ (fun path part => quarry.readText path = .ok part) paths parts ∧
      List.Forall₂ (fun part own => (TokenStream.ofText part).tokens = .ok own) parts tokens ∧
      ∃ all, (TokenStream.ofText (joinParts parts)).tokens = .ok all ∧
        all.map Token.content = tokens.flatten.map Token.content := by
  intro paths
  let parts := ["scalar A # dust", "\ufeffscalar", "", "B 1", "2 \"\"", "\"stone\" type C"]
  have hread : List.Forall₂ (fun path part => quarry.readText path = .ok part) paths parts :=
    forall₂_of_mapM (by decide +kernel)
  obtain ⟨tokens, htokens⟩ : ∃ tokens,
      parts.mapM (fun part => (TokenStream.ofText part).tokens) = .ok tokens := ⟨_, rfl⟩
  exact ⟨parts, tokens, by simp [paths], hread, forall₂_of_mapM htokens,
    (parts_keep_tokens (by simp [paths]) hread (forall₂_of_mapM htokens)).2⟩

end TypeTrace.Schema
