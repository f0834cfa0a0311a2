import Mathlib.Data.List.TakeWhile
import TypeTrace.Proofs.Results
import TypeTrace.Token.Lexer

/-! # What the lexer makes tokens of

Every token stands at a place that a text can have, and a name is written with the characters of
names. This holds of the end of the text as well, so it holds of whatever a reader finds in front.
-/

namespace TypeTrace

/-- All characters of a text are such as names are written with. -/
def IsName (text : String) : Prop := ∀ c ∈ text.toList, Lexeme.isNamePart c = true

instance : DecidablePred IsName := fun text =>
  decidable_of_iff (text.toList.all Lexeme.isNamePart = true) List.all_eq_true

/-- What a token has from the text that it was cut from. -/
structure Token.Lexical (token : Token) : Prop where
  position : token.position.Valid
  name : token.kind = .name → IsName token.value

namespace TokenStream

/-- All that can come to be in front is a token from a text. -/
def Lexical : TokenStream → Prop
  | .finished p => p.Valid
  | .broken _ => True
  | .next token rest => token.Lexical ∧ rest.Lexical

theorem Lexical.current {stream : TokenStream} {token : Token} (h : stream.Lexical)
    (hcurrent : stream.current = .ok token) : token.Lexical := by
  cases stream with
  | finished p =>
      cases hcurrent
      exact ⟨h, fun hkind => by cases hkind⟩
  | broken fault => cases hcurrent
  | next first rest =>
      cases hcurrent
      exact h.1

theorem Lexical.rest {stream : TokenStream} (h : stream.Lexical) : stream.rest.Lexical := by
  cases stream with
  | finished p => exact h
  | broken fault => trivial
  | next first rest => exact h.2

theorem Lexical.prepend {stream : TokenStream} {read : List Token} (h : stream.Lexical)
    (hread : ∀ token ∈ read, token.Lexical) : (stream.prepend read).Lexical := by
  unfold TokenStream.prepend
  induction read generalizing stream with
  | nil => exact h
  | cons token read ih =>
      have htoken := hread token List.mem_cons_self
      exact ih ⟨htoken, h⟩ fun other hother => hread other (List.mem_cons_of_mem _ hother)

end TokenStream

/-! ## What the lexer cuts from a text -/

namespace Lexeme

theorem kind_of_mark {c : Char} {kind : TokenKind} (h : mark? c = some kind) : kind ≠ .name := by
  unfold mark? at h
  split at h
  all_goals
    cases h
    try decide

theorem kind_of_number {cs : List Char} {lexeme : Lexeme} (h : number cs = .ok lexeme) :
    lexeme.kind ≠ .name := by
  have hkind (whole : Bool) : (if whole = true then TokenKind.int else .float) ≠ .name := by
    cases whole <;> decide
  unfold number at h
  obtain ⟨whole, -, h⟩ := exists_of_bind_eq_ok h
  obtain ⟨fraction, -, h⟩ := exists_of_bind_eq_ok h
  obtain ⟨exponent, -, h⟩ := exists_of_bind_eq_ok h
  dsimp only at h
  split at h
  · split at h
    · cases h
    · cases h
      exact hkind _
  · cases h
    exact hkind _

/-- Only names are cut as names. -/
theorem isName_of_read {cs : List Char} {lexeme : Lexeme} (h : read cs = .ok lexeme)
    (hkind : lexeme.kind = .name) : IsName lexeme.value := by
  unfold read at h
  split at h
  · cases h
  · cases h
    cases hkind
  · obtain ⟨quoted, -, h⟩ := exists_of_bind_eq_ok h
    cases h
    cases hkind
  · obtain ⟨quoted, -, h⟩ := exists_of_bind_eq_ok h
    cases h
    cases hkind
  · next c cs _ _ _ =>
    split at h
    · next kind hmark =>
      cases h
      exact absurd hkind (kind_of_mark hmark)
    · split at h
      · cases h
        intro d hd
        rw [String.toList_ofList] at hd
        exact List.mem_takeWhile_imp hd
      · split at h
        · exact absurd hkind (kind_of_number h)
        · split at h
          · cases h
          · cases h

end Lexeme

theorem TokenStream.lexical_scan {cs : List Char} {read : List Token} {skip : Nat}
    {inComment : Bool} {p : Position} (hp : p.Valid) (hread : ∀ token ∈ read, token.Lexical) :
    (scan read skip inComment p cs).Lexical := by
  induction cs generalizing read skip inComment p with
  | nil => exact Lexical.prepend hp hread
  | cons c cs ih =>
      have hafter := hp.after c cs
      unfold scan
      split
      · exact ih hafter hread
      · split
        · exact ih hafter hread
        · split
          · exact ih hafter hread
          · split
            · exact ih hafter hread
            · split
              · next lexeme hlexeme =>
                refine ih hafter (List.forall_mem_cons.mpr ⟨⟨hp, ?_⟩, hread⟩)
                exact Lexeme.isName_of_read hlexeme
              · exact Lexical.prepend trivial hread

/-- A text gives nothing but tokens at its places, with names that are names. -/
theorem TokenStream.lexical_ofText (text : String) : (TokenStream.ofText text).Lexical :=
  lexical_scan Position.valid_start (List.forall_mem_nil _)

end TypeTrace
