import Mathlib.Data.List.TakeDrop
import TypeTrace.Proofs.Results
import TypeTrace.Token.Lexer

/-! # A line end closes every token

A token does not reach beyond the text that it is cut from, and where it could go on, a line end stops
it. So a token is cut in the same way if the text goes on with a line end.
-/

namespace TypeTrace

/-! ## Strings -/

namespace Escape

theorem braced_append {value length room n : Nat} {cs : List Char} {c : Char}
    (h : braced value length room cs = (some c, n)) (rest : List Char) :
    braced value length room (cs ++ rest) = (some c, n) := by
  induction cs generalizing value length room with
  | nil => cases room <;> simp [braced] at h
  | cons d cs ih =>
      cases room with
      | zero => simp [braced] at h
      | succ room =>
          rw [List.cons_append]
          unfold braced at h ⊢
          split
          · next hclose => rwa [if_pos hclose] at h
          · next hopen =>
            rw [if_neg hopen] at h
            cases hdigit : Text.hexDigit? d with
            | none => simp [hdigit] at h
            | some value' =>
                rw [hdigit] at h
                exact ih h

theorem exists_of_fourDigits? {cs : List Char} {n : Nat} (h : Text.fourDigits? cs = some n) :
    ∃ a b c d more, cs = a :: b :: c :: d :: more ∧
      ∀ other, Text.fourDigits? (a :: b :: c :: d :: other) = some n := by
  unfold Text.fourDigits? at h
  split at h
  · next a b c d more => exact ⟨a, b, c, d, more, rfl, fun _ => h⟩
  · cases h

theorem read_unicode_append {slash meant : Char} {cs : List Char} {taken : Nat}
    (hopen : ∀ others, cs = '\x7b' :: others → False)
    (h : read (slash :: 'u' :: cs) = .ok (meant, taken)) (rest : List Char) :
    read (slash :: 'u' :: (cs ++ rest)) = .ok (meant, taken) := by
  rw [read.eq_2 _ _ hopen] at h
  cases hlead : Text.fourDigits? cs with
  | none => simp [hlead] at h
  | some lead =>
      obtain ⟨a, b, c, d, more, rfl, hdigits⟩ := exists_of_fourDigits? hlead
      have hopen' : ∀ others, a :: b :: c :: d :: (more ++ rest) = '\x7b' :: others → False :=
        fun _ heq => hopen _ (congrArg (· :: b :: c :: d :: more) (List.cons.inj heq).1)
      simp only [List.cons_append]
      rw [read.eq_2 _ _ hopen']
      simp only [hlead, hdigits, List.drop_succ_cons, List.drop_zero] at h ⊢
      split at h
      · next hscalar => rwa [if_pos hscalar]
      · next hscalar =>
        rw [if_neg hscalar]
        split at h
        · next more =>
          cases htrail : Text.fourDigits? more with
          | none => simp [htrail] at h
          | some trail =>
              obtain ⟨e, f, g, i, last, rfl, htrail'⟩ := exists_of_fourDigits? htrail
              simp only [htrail] at h
              simp only [List.cons_append, htrail']
              split at h
              · next hpair => rwa [if_pos hpair]
              · cases h
        · cases h

/-- An escape is known before anything behind it is looked at. -/
theorem read_append {cs : List Char} {meant : Char} {taken : Nat} (h : read cs = .ok (meant, taken))
    (rest : List Char) : read (cs ++ rest) = .ok (meant, taken) := by
  have hread := h
  unfold read at hread
  split at hread
  · next slash cs =>
    cases hbraced : braced 0 3 9 cs with
    | mk found n =>
        cases found with
        | none => simp [hbraced] at hread
        | some c =>
            simp only [hbraced] at hread
            simp only [List.cons_append, read, braced_append hbraced rest]
            exact hread
  · next slash cs hopen => exact read_unicode_append hopen h rest
  · next slash c cs _ hunicode =>
    cases hmeant : simple? c with
    | none => simp [hmeant] at hread
    | some meant =>
        simp only [List.cons_append]
        rw [read]
        · simpa [hmeant] using hread
        · exact fun _ hc => absurd hc hunicode
        · exact hunicode
  · cases hread

end Escape

/-- A string is read to its closing quote, whatever comes behind it. -/
theorem quotedString_append {value : List Char} {length skip : Nat} {cs : List Char}
    {text : String} {n : Nat} (h : quotedString value length skip cs = .ok (text, n))
    (rest : List Char) :
    n ≤ length + cs.length ∧ quotedString value length skip (cs ++ rest) = .ok (text, n) := by
  induction cs generalizing value length skip with
  | nil => simp [quotedString] at h
  | cons c cs ih =>
      rw [List.cons_append, List.length_cons]
      cases skip with
      | succ skip =>
          rw [quotedString] at h ⊢
          obtain ⟨hle, hrest⟩ := ih h
          exact ⟨by omega, hrest⟩
      | zero =>
          rw [quotedString] at h ⊢
          split at h
          · next hquote =>
            cases h
            exact ⟨by omega, if_pos hquote⟩
          · next hquote =>
            rw [if_neg hquote]
            split at h
            · cases h
            · next hline =>
              rw [if_neg hline]
              split at h
              · next hslash =>
                rw [if_pos hslash]
                cases hescape : Escape.read (c :: cs) with
                | error cause => simp [hescape] at h
                | ok escape =>
                    have hescape' := Escape.read_append hescape rest
                    rw [List.cons_append] at hescape'
                    rw [hescape] at h
                    rw [hescape']
                    obtain ⟨hle, hrest⟩ := ih h
                    exact ⟨by omega, hrest⟩
              · next hslash =>
                rw [if_neg hslash]
                obtain ⟨hle, hrest⟩ := ih h
                exact ⟨by omega, hrest⟩

theorem exists_of_append_eq (known : List Char) {cs rest tail : List Char} (h : cs ++ rest = known ++ tail)
    (hlength : known.length ≤ cs.length) : ∃ others, cs = known ++ others := by
  obtain ⟨others, hothers⟩ := List.prefix_of_prefix_length_le
    (h ▸ List.prefix_append known tail) (List.prefix_append cs rest) hlength
  exact ⟨others, hothers.symm⟩

/-- Three more characters are enough to see that one means nothing but itself or a line end. -/
theorem blockString_cons {lines : List (List Char)} {line : List Char} {length : Nat} {c : Char}
    {cs : List Char} (hlength : 3 ≤ cs.length)
    (hclose : ∀ tail, c = '"' → cs = '"' :: '"' :: tail → False)
    (hescaped : ∀ tail, c = '\\' → cs = '"' :: '"' :: '"' :: tail → False)
    (hreturn : ∀ tail, c = '\r' → cs = '\n' :: tail → False) (rest : List Char) :
    blockString lines line length (c :: (cs ++ rest)) =
      if c = '\n' ∨ c = '\r' then
        blockString (line.reverse :: lines) [] (length + 1) (cs ++ rest)
      else blockString lines (c :: line) (length + 1) (cs ++ rest) := by
  rw [blockString]
  · intro tail hc heq
    obtain ⟨others, rfl⟩ := exists_of_append_eq ['"', '"'] heq (by simp; omega)
    exact hclose others hc rfl
  · intro tail hc heq
    obtain ⟨others, rfl⟩ := exists_of_append_eq ['"', '"', '"'] heq (by simpa)
    exact hescaped others hc rfl
  · intro tail hc heq
    obtain ⟨others, rfl⟩ := exists_of_append_eq ['\n'] heq (by simp; omega)
    exact hreturn others hc rfl

theorem blockString_append {lines : List (List Char)} {line : List Char} {length : Nat}
    {cs : List Char} {text : String} {n : Nat} (h : blockString lines line length cs = .ok (text, n))
    (rest : List Char) :
    length + 3 ≤ n ∧ n ≤ length + cs.length ∧
      blockString lines line length (cs ++ rest) = .ok (text, n) := by
  fun_induction blockString lines line length cs with
  | case1 => cases h
  | case2 lines line length behind =>
      cases h
      simp only [List.cons_append, List.length_cons]
      refine ⟨by omega, by omega, ?_⟩
      rw [blockString]
  | case3 lines line length cs ih =>
      obtain ⟨hleast, hmost, hrest⟩ := ih h
      simp only [List.cons_append, List.length_cons]
      refine ⟨by omega, by omega, ?_⟩
      rwa [blockString]
  | case4 lines line length cs ih =>
      obtain ⟨hleast, hmost, hrest⟩ := ih h
      simp only [List.cons_append, List.length_cons]
      refine ⟨by omega, by omega, ?_⟩
      rwa [blockString]
  | case5 lines line length c cs hclose hescaped hreturn hline ih =>
      obtain ⟨hleast, hmost, hrest⟩ := ih h
      simp only [List.cons_append, List.length_cons]
      refine ⟨by omega, by omega, ?_⟩
      rwa [blockString_cons (by omega) hclose hescaped hreturn, if_pos hline]
  | case6 lines line length c cs hclose hescaped hreturn hline ih =>
      obtain ⟨hleast, hmost, hrest⟩ := ih h
      simp only [List.cons_append, List.length_cons]
      refine ⟨by omega, by omega, ?_⟩
      rwa [blockString_cons (by omega) hclose hescaped hreturn, if_neg hline]

namespace Lexeme

/-! ## Numbers -/

theorem takeWhile_append_line {p : Char → Bool} (hp : p '\n' = false) (cs rest : List Char) :
    (cs ++ '\n' :: rest).takeWhile p = cs.takeWhile p := by
  induction cs with
  | nil => simp [hp]
  | cons c cs ih => simp only [List.cons_append, List.takeWhile_cons, ih]

theorem dropWhile_append_line {p : Char → Bool} (hp : p '\n' = false) (cs rest : List Char) :
    (cs ++ '\n' :: rest).dropWhile p = cs.dropWhile p ++ '\n' :: rest := by
  induction cs with
  | nil => simp [hp]
  | cons c cs ih =>
      simp only [List.cons_append, List.dropWhile_cons, ih]
      split <;> rfl

/-- A line end behind a text makes no new beginning of it, except for one that has a line end. -/
theorem not_begins_append_line (front : List Char) {cs : List Char} (hfront : '\n' ∉ front)
    (h : ∀ behind, cs = front ++ behind → False) (rest : List Char) :
    ∀ behind, cs ++ '\n' :: rest = front ++ behind → False := by
  intro behind heq
  rcases List.append_eq_append_iff.mp heq with ⟨middle, hmiddle, hrest⟩ | ⟨middle, hmiddle, -⟩
  · cases middle with
    | nil => exact h [] (by rw [hmiddle, List.append_nil, List.append_nil])
    | cons c middle =>
        obtain ⟨rfl, -⟩ := List.cons.inj hrest
        exact hfront (by rw [hmiddle]; simp)
  · exact h middle hmiddle

/-- A reader takes characters from the front of a text, and takes the same ones if a line end comes
behind the text. -/
def StopsAtLine (reader : List Char → Except LexicalFault (List Char × List Char)) : Prop :=
  ∀ cs front behind, reader cs = .ok (front, behind) →
    cs = front ++ behind ∧ ∀ rest, reader (cs ++ '\n' :: rest) = .ok (front, behind ++ '\n' :: rest)

theorem stopsAtLine_digits (offset : Nat) : StopsAtLine (digits offset) := by
  intro cs front behind h
  cases cs with
  | nil => cases h
  | cons c cs =>
      rw [digits] at h
      split at h
      · next hdigit =>
        rw [List.span_eq_takeWhile_dropWhile] at h
        cases h
        refine ⟨List.takeWhile_append_dropWhile.symm, fun rest => ?_⟩
        have hline : isDigit '\n' = false := by decide
        rw [List.cons_append, digits, if_pos hdigit, List.span_eq_takeWhile_dropWhile,
          ← List.cons_append, takeWhile_append_line hline, dropWhile_append_line hline]
      · cases h

theorem stopsAtLine_wholePart (offset : Nat) : StopsAtLine (wholePart offset) := by
  intro cs front behind h
  unfold wholePart at h
  split at h
  · next others =>
    cases others with
    | nil =>
        cases h
        exact ⟨rfl, fun rest => rfl⟩
    | cons c others =>
        dsimp only [List.head?_cons] at h
        split at h
        · cases h
        · next hdigit =>
          cases h
          refine ⟨rfl, fun rest => ?_⟩
          simp only [List.cons_append, wholePart, List.head?_cons, if_neg hdigit]
  · next hzero =>
    obtain ⟨heq, hrest⟩ := stopsAtLine_digits offset _ _ _ h
    refine ⟨heq, fun rest => ?_⟩
    rw [wholePart]
    · exact hrest rest
    · exact not_begins_append_line ['0'] (by decide) hzero rest

theorem stopsAtLine_fractionPart (offset : Nat) : StopsAtLine (fractionPart offset) := by
  intro cs front behind h
  unfold fractionPart at h
  split at h
  · next cs =>
    obtain ⟨⟨ds, behind'⟩, hdigits, h⟩ := exists_of_bind_eq_ok h
    cases h
    obtain ⟨rfl, hrest⟩ := stopsAtLine_digits _ _ _ _ hdigits
    refine ⟨rfl, fun rest => ?_⟩
    rw [List.cons_append, fractionPart, hrest]
    rfl
  · next hpoint =>
    cases h
    refine ⟨rfl, fun rest => ?_⟩
    rw [fractionPart]
    exact not_begins_append_line ['.'] (by decide) hpoint rest

theorem stopsAtLine_exponentPart (offset : Nat) : StopsAtLine (exponentPart offset) := by
  intro cs front behind h
  unfold exponentPart at h
  split at h
  · cases h
    exact ⟨rfl, fun rest => by simp [exponentPart]⟩
  · next e cs =>
    split at h
    · next hletter =>
      cases cs with
      | nil => cases h
      | cons s cs =>
          dsimp only at h
          split at h
          · next hsign =>
            obtain ⟨⟨ds, behind'⟩, hdigits, h⟩ := exists_of_bind_eq_ok h
            cases h
            obtain ⟨rfl, hrest⟩ := stopsAtLine_digits _ _ _ _ hdigits
            refine ⟨rfl, fun rest => ?_⟩
            simp only [List.cons_append, exponentPart, if_pos hletter, if_pos hsign]
            rw [hrest]
            rfl
          · next hsign =>
            obtain ⟨⟨ds, behind'⟩, hdigits, h⟩ := exists_of_bind_eq_ok h
            cases h
            obtain ⟨heq, hrest⟩ := stopsAtLine_digits _ _ _ _ hdigits
            refine ⟨congrArg (e :: ·) heq, fun rest => ?_⟩
            simp only [List.cons_append, exponentPart, if_pos hletter, if_neg hsign]
            rw [← List.cons_append, hrest]
            rfl
    · next hletter =>
      cases h
      refine ⟨rfl, fun rest => ?_⟩
      simp only [List.cons_append, exponentPart, if_neg hletter]

/-- A number behind its sign. -/
def unsigned (sign rest : List Char) : Except LexicalFault Lexeme := do
  let (whole, rest) ← wholePart sign.length rest
  let before := sign ++ whole
  let (fraction, rest) ← fractionPart before.length rest
  let (exponent, rest) ← exponentPart (before.length + fraction.length) rest
  let text := before ++ fraction ++ exponent
  match rest.head? with
  | some c =>
    if c = '.' ∨ isNameStart c then .error (text.length, .digitExpected (some c))
    else .ok ⟨if fraction.isEmpty && exponent.isEmpty then .int else .float,
      String.ofList text, text.length⟩
  | none =>
    .ok ⟨if fraction.isEmpty && exponent.isEmpty then .int else .float,
      String.ofList text, text.length⟩

theorem number_minus (cs : List Char) : number ('-' :: cs) = unsigned ['-'] cs := rfl

theorem number_of_not_minus {cs : List Char} (h : ∀ behind, cs = '-' :: behind → False) :
    number cs = unsigned [] cs := by
  unfold number unsigned
  split
  next sign rest heq =>
    split at heq
    · next behind => exact (h behind rfl).elim
    · cases heq
      rfl

theorem unsigned_append {sign cs : List Char} {lexeme : Lexeme} (h : unsigned sign cs = .ok lexeme)
    (rest : List Char) :
    lexeme.length ≤ sign.length + cs.length ∧ unsigned sign (cs ++ '\n' :: rest) = .ok lexeme := by
  obtain ⟨⟨whole, afterWhole⟩, hwhole, h⟩ := exists_of_bind_eq_ok h
  obtain ⟨⟨fraction, afterFraction⟩, hfraction, h⟩ := exists_of_bind_eq_ok h
  obtain ⟨⟨exponent, behind⟩, hexponent, h⟩ := exists_of_bind_eq_ok h
  obtain ⟨hcs, hwhole⟩ := stopsAtLine_wholePart _ _ _ _ hwhole
  obtain ⟨hafter, hfraction⟩ := stopsAtLine_fractionPart _ _ _ _ hfraction
  obtain ⟨hbehind, hexponent⟩ := stopsAtLine_exponentPart _ _ _ _ hexponent
  have hlength : cs.length = whole.length + fraction.length + exponent.length + behind.length := by
    rw [hcs, hafter, hbehind]
    simp only [List.length_append]
    omega
  simp only [unsigned, hwhole, hfraction, hexponent, bind, Except.bind]
  cases behind with
  | nil =>
      cases h
      refine ⟨?_, rfl⟩
      simp only [List.length_append]
      omega
  | cons c behind =>
      dsimp only [List.head?_cons] at h
      split at h
      · cases h
      · next hends =>
        cases h
        refine ⟨?_, if_neg hends⟩
        simp only [List.length_append]
        omega

theorem number_append {cs : List Char} {lexeme : Lexeme} (h : number cs = .ok lexeme)
    (rest : List Char) :
    lexeme.length ≤ cs.length ∧ number (cs ++ '\n' :: rest) = .ok lexeme := by
  by_cases hminus : ∃ behind, cs = '-' :: behind
  · obtain ⟨behind, rfl⟩ := hminus
    rw [number_minus] at h
    rw [List.cons_append, number_minus, List.length_cons, Nat.add_comm]
    exact unsigned_append h rest
  · have hminus : ∀ behind, cs = '-' :: behind → False := fun behind heq => hminus ⟨behind, heq⟩
    rw [number_of_not_minus hminus] at h
    have hminus' := not_begins_append_line ['-'] (by decide) hminus rest
    rw [number_of_not_minus hminus']
    have hunsigned := unsigned_append h rest
    simpa using hunsigned

/-! ## Tokens -/

/-- A token that is cut from a text is cut in the same way if the text goes on with a line end. -/
theorem read_append {cs : List Char} {lexeme : Lexeme} (h : read cs = .ok lexeme)
    (rest : List Char) : lexeme.length ≤ cs.length ∧ read (cs ++ '\n' :: rest) = .ok lexeme := by
  unfold read at h
  split at h
  · cases h
  · cases h
    exact ⟨by simp, rfl⟩
  · next behind =>
    obtain ⟨⟨value, length⟩, hblock, h⟩ := exists_of_bind_eq_ok h
    cases h
    obtain ⟨-, hle, hblock⟩ := blockString_append hblock ('\n' :: rest)
    simp only [List.cons_append, List.length_cons]
    refine ⟨by omega, ?_⟩
    rw [read, hblock]
    rfl
  · next behind hblock =>
    obtain ⟨⟨value, length⟩, hquoted, h⟩ := exists_of_bind_eq_ok h
    cases h
    obtain ⟨hle, hquoted⟩ := quotedString_append hquoted ('\n' :: rest)
    simp only [List.cons_append, List.length_cons]
    refine ⟨by omega, ?_⟩
    rw [read]
    · rw [hquoted]
      rfl
    · exact not_begins_append_line ['"', '"'] (by decide) hblock rest
  · next c cs hspread hblock hquote =>
    -- A line end makes neither three dots nor three quotes of what has fewer.
    rw [List.cons_append, read]
    · split at h
      · next kind hmark =>
        cases h
        exact ⟨by simp, rfl⟩
      · next hmark =>
        split at h
        · next hname =>
          cases h
          have hline : isNamePart '\n' = false := by decide
          rw [if_pos hname, ← List.cons_append, takeWhile_append_line hline]
          exact ⟨(List.takeWhile_sublist _).length_le, rfl⟩
        · next hname =>
          rw [if_neg hname]
          split at h
          · next hnumber =>
            rw [if_pos hnumber, ← List.cons_append]
            exact number_append h rest
          · split at h
            · cases h
            · cases h
    · intro tail hc
      have hdots := fun tail => hspread tail hc
      exact not_begins_append_line ['.', '.'] (by decide) hdots rest tail
    · intro tail hc
      exact absurd hc hquote
    · exact hquote

end Lexeme

end TypeTrace
