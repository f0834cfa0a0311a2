import TypeTrace.Proofs.Token.Boundary

/-! # The tokens of texts one below the other

The characters of a text are line ends, comments, blanks and tokens, whatever stands in front of them
and wherever they stand. A text that goes on with a line end therefore has its own tokens and those of
what comes behind the line end.
-/

namespace TypeTrace

/-- What a token is, wherever it stands. -/
def Token.content (token : Token) : TokenKind × String := (token.kind, token.value)

/-- A text has its tokens one by one, from a place on that is within a comment or not. -/
inductive Lexes : Bool → List Char → List (TokenKind × String) → Prop where
  | nil (inComment : Bool) : Lexes inComment [] []
  | line {inComment : Bool} {c : Char} {cs : List Char} {contents : List (TokenKind × String)}
      (hline : c = '\n' ∨ c = '\r') (h : Lexes false cs contents) :
      Lexes inComment (c :: cs) contents
  | comment {inComment : Bool} {c : Char} {cs : List Char} {contents : List (TokenKind × String)}
      (hline : ¬ (c = '\n' ∨ c = '\r')) (hcomment : inComment = true ∨ c = '#')
      (h : Lexes true cs contents) : Lexes inComment (c :: cs) contents
  | blank {inComment : Bool} {c : Char} {cs : List Char} {contents : List (TokenKind × String)}
      (hline : ¬ (c = '\n' ∨ c = '\r')) (hcomment : ¬ (inComment = true ∨ c = '#'))
      (hblank : Lexeme.isBlank c = true) (h : Lexes false cs contents) :
      Lexes inComment (c :: cs) contents
  | token {inComment : Bool} {c : Char} {cs : List Char} {contents : List (TokenKind × String)}
      {lexeme : Lexeme} (hline : ¬ (c = '\n' ∨ c = '\r'))
      (hcomment : ¬ (inComment = true ∨ c = '#')) (hblank : ¬ Lexeme.isBlank c = true)
      (hread : Lexeme.read (c :: cs) = .ok lexeme)
      (h : Lexes false (cs.drop (lexeme.length - 1)) contents) :
      Lexes inComment (c :: cs) ((lexeme.kind, lexeme.value) :: contents)

/-- A line end ends a comment as well as a token. -/
theorem Lexes.append_line {inComment : Bool} {cs rest : List Char}
    {contents others : List (TokenKind × String)} (h : Lexes inComment cs contents)
    (hrest : Lexes false rest others) :
    Lexes inComment (cs ++ '\n' :: rest) (contents ++ others) := by
  induction h with
  | nil => exact .line (Or.inl rfl) hrest
  | line hline _ ih => exact .line hline ih
  | comment hline hcomment _ ih => exact .comment hline hcomment ih
  | blank hline hcomment hblank _ ih => exact .blank hline hcomment hblank ih
  | token hline hcomment hblank hread _ ih =>
      obtain ⟨hlength, hread⟩ := Lexeme.read_append hread rest
      rw [List.length_cons] at hlength
      rw [← List.drop_append_of_le_length (by omega)] at ih
      exact .token hline hcomment hblank hread ih

namespace TokenStream

theorem tokens_prepend (stream : TokenStream) (read : List Token) :
    (stream.prepend read).tokens = (read.reverse ++ ·) <$> stream.tokens := by
  unfold prepend
  induction read generalizing stream with
  | nil => simp
  | cons token read ih =>
      rw [List.foldl_cons, ih, tokens]
      cases stream.tokens <;> simp

variable {read : List Token} {skip : Nat} {inComment : Bool} {p : Position} {cs : List Char}

theorem lexes_of_scan {tokens : List Token}
    (h : (scan read skip inComment p cs).tokens = .ok tokens) :
    ∃ contents, Lexes inComment (cs.drop skip) contents ∧
      tokens.map Token.content = read.reverse.map Token.content ++ contents := by
  induction cs generalizing read skip inComment p with
  | nil =>
      rw [scan, tokens_prepend] at h
      cases h
      exact ⟨[], by simpa using .nil inComment, by simp⟩
  | cons c cs ih =>
      unfold scan at h
      split at h
      · exact ih h
      · rw [List.drop_zero]
        split at h
        · next hline =>
          obtain ⟨contents, hlexes, heq⟩ := ih h
          exact ⟨contents, .line hline hlexes, heq⟩
        · next hline =>
          split at h
          · next hcomment =>
            obtain ⟨contents, hlexes, heq⟩ := ih h
            exact ⟨contents, .comment hline hcomment hlexes, heq⟩
          · next hcomment =>
            split at h
            · next hblank =>
              obtain ⟨contents, hlexes, heq⟩ := ih h
              exact ⟨contents, .blank hline hcomment hblank hlexes, heq⟩
            · next hblank =>
              split at h
              · next lexeme hread =>
                obtain ⟨contents, hlexes, heq⟩ := ih h
                refine ⟨_, .token hline hcomment hblank hread hlexes, ?_⟩
                simpa [Token.content] using heq
              · rw [tokens_prepend] at h
                cases h

theorem scan_of_lexes {contents : List (TokenKind × String)}
    (h : Lexes inComment (cs.drop skip) contents) :
    ∃ tokens, (scan read skip inComment p cs).tokens = .ok tokens ∧
      tokens.map Token.content = read.reverse.map Token.content ++ contents := by
  induction cs generalizing read skip inComment p contents with
  | nil =>
      rw [List.drop_nil] at h
      cases h
      exact ⟨read.reverse, by simp [scan, tokens_prepend, tokens], by simp⟩
  | cons c cs ih =>
      cases skip with
      | succ skip => exact ih h
      | zero =>
          rw [List.drop_zero] at h
          rw [scan]
          cases h with
          | line hline h =>
              rw [if_pos hline]
              exact ih h
          | comment hline hcomment h =>
              rw [if_neg hline, if_pos hcomment]
              exact ih h
          | blank hline hcomment hblank h =>
              rw [if_neg hline, if_neg hcomment, if_pos hblank]
              exact ih h
          | @token _ _ _ _ lexeme hline hcomment hblank hread h =>
              rw [if_neg hline, if_neg hcomment, if_neg hblank, hread]
              obtain ⟨tokens, htokens, heq⟩ := ih h
              exact ⟨tokens, htokens, by simpa [Token.content] using heq⟩

theorem lexes_ofText {text : String} {contents : List (TokenKind × String)} :
    Lexes false text.toList contents ↔
      ∃ tokens, (ofText text).tokens = .ok tokens ∧ tokens.map Token.content = contents := by
  constructor
  · intro h
    exact scan_of_lexes h
  · rintro ⟨tokens, htokens, rfl⟩
    obtain ⟨contents, hlexes, heq⟩ := lexes_of_scan htokens
    rw [heq]
    exact hlexes

end TokenStream

/-- Texts one below the other have the tokens of all of them in order. -/
theorem Lexes.intercalate {texts : List String} {contents : List (List (TokenKind × String))}
    (hne : texts ≠ [])
    (h : List.Forall₂ (fun text contents => Lexes false text.toList contents) texts contents) :
    Lexes false (String.intercalate "\n" texts).toList contents.flatten := by
  induction h with
  | nil => exact absurd rfl hne
  | @cons text first texts contents hfirst hothers ih =>
      rw [List.flatten_cons]
      by_cases hempty : texts = []
      · subst hempty
        cases hothers
        rw [String.intercalate_singleton, List.flatten_nil, List.append_nil]
        exact hfirst
      · have hcons : (String.intercalate "\n" (text :: texts)).toList =
            text.toList ++ '\n' :: (String.intercalate "\n" texts).toList := by
          rw [String.intercalate_cons_of_ne_nil hempty]
          simp
        rw [hcons]
        exact hfirst.append_line (ih hempty)

end TypeTrace
