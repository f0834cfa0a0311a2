import Mathlib.Data.Char
import Mathlib.Data.List.TakeDrop
import TypeTrace.Json.Reader

/-! # Texts and numbers in JSON

A text in quotes and a whole number are read as what was written. A character beyond the first 65536
goes through two units, each of four digits, and comes back as one character. All that is written is
a line feed or a character that ASCII can print.
-/

namespace TypeTrace

namespace Text

/-! ## Four digits -/

theorem hexDigit?_digitChar : ∀ d < 16, hexDigit? d.digitChar = some d := by decide

theorem hex_succ {width : Nat} (hwidth : 0 < width) (n : Nat) :
    (hex (width + 1) n).toList = (hex width (n / 16)).toList ++ [(n % 16).digitChar] := by
  unfold hex
  simp only [String.toList_ofList]
  by_cases hn : n < 16
  · have hzeros : List.replicate width '0' = List.replicate (width - 1) '0' ++ ['0'] := by
      rw [← List.replicate_succ']
      congr 1
      omega
    rw [Nat.toDigits_of_lt_base hn, Nat.div_eq_of_lt hn, Nat.toDigits_zero, Nat.mod_eq_of_lt hn]
    simp [hzeros]
  · have hdigits := Nat.toDigits_of_base_le (by decide : 1 < 16) (Nat.le_of_not_lt hn)
    rw [hdigits, List.length_append, List.length_singleton, Nat.add_sub_add_right,
      List.append_assoc]

theorem hex_four {n : Nat} (hn : n < 0x10000) :
    (hex 4 n).toList = [(n / 0x1000).digitChar, (n / 0x100 % 16).digitChar,
      (n / 0x10 % 16).digitChar, (n % 16).digitChar] := by
  have hfirst : (hex 1 (n / 16 / 16 / 16)).toList = [(n / 16 / 16 / 16).digitChar] := by
    have hlt : n / 16 / 16 / 16 < 16 := by omega
    unfold hex
    rw [String.toList_ofList, Nat.toDigits_of_lt_base hlt]
    rfl
  rw [hex_succ (by decide), hex_succ (by decide), hex_succ (by decide), hfirst]
  simp [Nat.div_div_eq_div_mul]

theorem fourDigits?_hex {n : Nat} (hn : n < 0x10000) : fourDigits? (hex 4 n).toList = some n := by
  have hvalue : ((n / 0x1000 * 16 + n / 0x100 % 16) * 16 + n / 0x10 % 16) * 16 + n % 16 = n := by
    omega
  rw [hex_four hn, fourDigits?, hexDigit?_digitChar _ (by omega), hexDigit?_digitChar _ (by omega),
    hexDigit?_digitChar _ (by omega), hexDigit?_digitChar _ (by omega)]
  exact congrArg some hvalue

/-! ## Pairs of units -/

theorem isScalar_iff {n : Nat} :
    isScalar n = true ↔ n ≤ 0xd7ff ∨ 0xe000 ≤ n ∧ n ≤ 0x10ffff := by
  simp [isScalar]

theorem isLead_iff {n : Nat} : isLead n = true ↔ 0xd800 ≤ n ∧ n ≤ 0xdbff := by
  simp [isLead]

theorem isTrail_iff {n : Nat} : isTrail n = true ↔ 0xdc00 ≤ n ∧ n ≤ 0xdfff := by
  simp [isTrail]

theorem isScalar_toNat (c : Char) : isScalar c.toNat = true := by
  have hvalid : c.toNat < 0xd800 ∨ 0xdfff < c.toNat ∧ c.toNat < 0x110000 := c.valid
  rw [isScalar_iff]
  omega

variable {c : Char}

theorem isLead_halves (hc : 0xffff < c.toNat) : isLead (halves c).1 = true := by
  have hvalid := isScalar_iff.mp (isScalar_toNat c)
  rw [isLead_iff]
  simp only [halves]
  omega

theorem isTrail_halves (c : Char) : isTrail (halves c).2 = true := by
  rw [isTrail_iff]
  simp only [halves]
  omega

theorem combine_halves (hc : 0xffff < c.toNat) : combine (halves c).1 (halves c).2 = c := by
  have hvalid := isScalar_iff.mp (isScalar_toNat c)
  have hvalue : 0x10000 + ((halves c).1 - 0xd800) * 0x400 + ((halves c).2 - 0xdc00) = c.toNat := by
    simp only [halves]
    omega
  rw [combine, hvalue, Char.ofNat_toNat]

end Text

namespace Json

/-! ## Characters -/

/-- A line feed or a character that ASCII can print. -/
def IsPlain (c : Char) : Prop := c = '\n' ∨ 0x20 ≤ c.toNat ∧ c.toNat ≤ 0x7e

instance : DecidablePred IsPlain := fun _ => inferInstanceAs (Decidable (_ ∨ _))

theorem IsPlain.ne_return {c : Char} (h : IsPlain c) : c ≠ '\r' := by
  rintro rfl
  exact absurd h (by decide)

/-- How a character is written: by a short escape, as it stands, by one unit or by two. -/
theorem escapeChar_cases (c : Char) :
    (∃ e, escaped? e = some c ∧ e ≠ 'u' ∧ IsPlain e ∧ c.toNat ≤ 0xffff ∧
      escapeChar c = ['\\', e]) ∨
    (c ≠ '"' ∧ c ≠ '\\' ∧ 0x20 ≤ c.toNat ∧ c.toNat ≤ 0x7e ∧ escapeChar c = [c]) ∨
    (c.toNat ≤ 0xffff ∧ escapeChar c = unitEscape c.toNat) ∨
    (0xffff < c.toNat ∧
      escapeChar c = unitEscape (Text.halves c).1 ++ unitEscape (Text.halves c).2) := by
  by_cases hshort : c ∈ ['"', '\\', '\n', '\r', '\t', '\x08', '\x0c']
  · have hall : (['"', '\\', '\n', '\r', '\t', '\x08', '\x0c'].all fun c =>
        "\"\\nrtbf".toList.any fun e => escaped? e = some c ∧ e ≠ 'u' ∧ IsPlain e ∧
          c.toNat ≤ 0xffff ∧ escapeChar c = ['\\', e]) = true := by decide
    obtain ⟨e, -, he⟩ := List.any_eq_true.mp (List.all_eq_true.mp hall c hshort)
    exact Or.inl ⟨e, of_decide_eq_true he⟩
  · simp only [List.mem_cons, List.not_mem_nil, or_false, not_or] at hshort
    obtain ⟨hquote, hslash, h3, h4, h5, h6, h7⟩ := hshort
    right
    rw [escapeChar, if_neg hquote, if_neg hslash, if_neg h3, if_neg h4, if_neg h5, if_neg h6,
      if_neg h7]
    split
    · next hplain => exact Or.inl ⟨hquote, hslash, hplain.1, hplain.2, rfl⟩
    · split
      · next hone => exact Or.inr (Or.inl ⟨hone, rfl⟩)
      · next htwo => exact Or.inr (Or.inr ⟨Nat.lt_of_not_le htwo, rfl⟩)

theorem halves_lt {c : Char} (hc : 0xffff < c.toNat) :
    (Text.halves c).1 < 0x10000 ∧ (Text.halves c).2 < 0x10000 := by
  have hlead := Text.isLead_iff.mp (Text.isLead_halves hc)
  have htrail := Text.isTrail_iff.mp (Text.isTrail_halves c)
  omega

/-! ## Texts -/

/-- The units that stand for a character. -/
def unitsOf (c : Char) : List Nat :=
  if c.toNat ≤ 0xffff then [c.toNat] else [(Text.halves c).1, (Text.halves c).2]

theorem readUnits_unitEscape {n : Nat} (hn : n < 0x10000) (rest : List Char) :
    readUnits (unitEscape n ++ rest) =
      (readUnits rest).map fun (units, rest) => (n :: units, rest) := by
  have hdigits := Text.fourDigits?_hex hn
  unfold unitEscape
  rw [Text.hex_four hn] at hdigits ⊢
  simp only [List.cons_append, List.nil_append]
  rw [readUnits, if_neg (by decide), if_pos rfl, hdigits]
  cases readUnits rest <;> rfl

theorem readUnits_short {e c : Char} (he : escaped? e = some c) (hu : e ≠ 'u') (rest : List Char) :
    readUnits ('\\' :: e :: rest) =
      (readUnits rest).map fun (units, rest) => (c.toNat :: units, rest) := by
  rw [readUnits, if_neg (by decide), if_pos rfl]
  · rw [he]
    cases readUnits rest <;> rfl
  · rintro _ _ _ _ _ rfl
    exact absurd rfl hu

theorem readUnits_plain {c : Char} (hquote : c ≠ '"') (hslash : c ≠ '\\') (hc : 0x20 ≤ c.toNat)
    (rest : List Char) :
    readUnits (c :: rest) =
      (readUnits rest).map fun (units, rest) => (c.toNat :: units, rest) := by
  rw [readUnits.eq_def]
  simp only [if_neg hquote, if_neg hslash, if_neg (Nat.not_lt.mpr hc)]
  cases readUnits rest <;> rfl

theorem readUnits_escapeChar (c : Char) (rest : List Char) :
    readUnits (escapeChar c ++ rest) =
      (readUnits rest).map fun (units, rest) => (unitsOf c ++ units, rest) := by
  have hone (hc : c.toNat ≤ 0xffff) : unitsOf c = [c.toNat] := if_pos hc
  obtain ⟨e, he, hu, -, hc, heq⟩ | ⟨hquote, hslash, hlow, hhigh, heq⟩ | ⟨hc, heq⟩ | ⟨hc, heq⟩ :=
    escapeChar_cases c
  · rw [heq, hone hc]
    exact readUnits_short he hu rest
  · rw [heq, hone (by omega)]
    exact readUnits_plain hquote hslash hlow rest
  · rw [heq, hone hc]
    exact readUnits_unitEscape (by omega) rest
  · have hunits : unitsOf c = [(Text.halves c).1, (Text.halves c).2] := if_neg (by omega)
    rw [heq, hunits, List.append_assoc, readUnits_unitEscape (halves_lt hc).1,
      readUnits_unitEscape (halves_lt hc).2]
    cases readUnits rest <;> rfl

theorem readUnits_escaped (cs rest : List Char) :
    readUnits (cs.flatMap escapeChar ++ '"' :: rest) = some (cs.flatMap unitsOf, rest) := by
  induction cs with
  | nil =>
      rw [List.flatMap_nil, List.nil_append, readUnits.eq_def]
      rfl
  | cons c cs ih =>
      rw [List.flatMap_cons, List.append_assoc, readUnits_escapeChar, ih]
      rfl

theorem ofUnits_scalar {unit : Nat} (h : Text.isScalar unit = true) (units : List Nat) :
    ofUnits (unit :: units) = (ofUnits units).map (Char.ofNat unit :: ·) := by
  cases units with
  | nil => simp [ofUnits, h]
  | cons next units => rw [ofUnits, if_pos h]

theorem ofUnits_pair {lead trail : Nat} (hlead : Text.isLead lead = true)
    (htrail : Text.isTrail trail = true) (units : List Nat) :
    ofUnits (lead :: trail :: units) = (ofUnits units).map (Text.combine lead trail :: ·) := by
  have hscalar : ¬ Text.isScalar lead = true := by
    rw [Text.isScalar_iff]
    rw [Text.isLead_iff] at hlead
    omega
  rw [ofUnits, if_neg hscalar, if_pos (by simp [hlead, htrail])]

theorem ofUnits_unitsOf (cs : List Char) : ofUnits (cs.flatMap unitsOf) = some cs := by
  induction cs with
  | nil => rfl
  | cons c cs ih =>
      rw [List.flatMap_cons]
      by_cases hc : c.toNat ≤ 0xffff
      · have hunits : unitsOf c = [c.toNat] := if_pos hc
        rw [hunits, List.singleton_append, ofUnits_scalar (Text.isScalar_toNat c), ih,
          Char.ofNat_toNat]
        rfl
      · have hc' := Nat.lt_of_not_le hc
        have hunits : unitsOf c = [(Text.halves c).1, (Text.halves c).2] := if_neg hc
        rw [hunits, List.cons_append, List.singleton_append,
          ofUnits_pair (Text.isLead_halves hc') (Text.isTrail_halves c), ih,
          Text.combine_halves hc']
        rfl

theorem toList_quote (text : String) :
    (quote text).toList = '"' :: (text.toList.flatMap escapeChar ++ ['"']) :=
  String.toList_ofList

theorem readText_quote (text : String) (rest : List Char) :
    readText ((quote text).toList ++ rest) = some (text, rest) := by
  rw [toList_quote, List.cons_append, List.append_assoc, List.singleton_append, readText,
    readUnits_escaped]
  simp [ofUnits_unitsOf]

/-! ## Numbers -/

/-- What follows a number does not go on with it. -/
def EndsNumber (rest : List Char) : Prop := ∀ c ∈ rest.head?, c.isDigit = false

theorem ofDigits_toDigits (n : Nat) : ofDigits (Nat.toDigits 10 n) = n := by
  have hdigits : Nat.ofDigitChars 10 (Nat.toDigits 10 n) 0 = n := Nat.ofDigitChars_ten_toDigits
  rw [Nat.ofDigitChars_eq_foldl] at hdigits
  simpa only [ofDigits, Nat.mul_comm] using hdigits

theorem digitChar_eq_zero : ∀ n < 10, n.digitChar = '0' → n = 0 := by decide

/-- Only zero itself begins with a zero. -/
theorem eq_zero_of_toDigits {n : Nat} {digits : List Char}
    (h : Nat.toDigits 10 n = '0' :: digits) : n = 0 := by
  induction n using Nat.strongRecOn generalizing digits with
  | ind n ih =>
      rw [Nat.toDigits_eq_if (by decide)] at h
      split at h
      · next hn => exact digitChar_eq_zero n hn (List.cons.inj h).1
      · next hn =>
        obtain ⟨first, others, hfirst⟩ := List.exists_cons_of_ne_nil
          (Nat.toDigits_ne_nil (n := n / 10) (b := 10))
        rw [hfirst, List.cons_append, List.cons.injEq] at h
        obtain ⟨rfl, -⟩ := h
        have hzero := ih (n / 10) (by omega) hfirst
        omega

theorem isDigit_of_mem {n : Nat} {c : Char} (hc : c ∈ Nat.toDigits 10 n) : c.isDigit = true :=
  Nat.isDigit_of_mem_toDigits (by decide) (by decide) hc

theorem readNat_toDigits (n : Nat) {rest : List Char} (hrest : EndsNumber rest) :
    readNat (Nat.toDigits 10 n ++ rest) = some (n, rest) := by
  have hdigits : ∀ c ∈ Nat.toDigits 10 n, c.isDigit = true := fun c => isDigit_of_mem
  have hspan : (Nat.toDigits 10 n ++ rest).span Char.isDigit = (Nat.toDigits 10 n, rest) := by
    rw [List.span_eq_takeWhile_dropWhile, List.takeWhile_append_of_pos hdigits,
      List.dropWhile_append_of_pos hdigits]
    cases rest with
    | nil => simp
    | cons c rest => simp [hrest c rfl]
  rw [readNat, hspan]
  split
  · next heq => exact absurd (congrArg Prod.fst heq) Nat.toDigits_ne_nil
  · next heq =>
    have hzero := eq_zero_of_toDigits (congrArg Prod.fst heq)
    subst hzero
    cases heq
  · next heq =>
    cases heq
    rw [ofDigits_toDigits]

/-- A character that a number can begin with. -/
def BeginsNumber (c : Char) : Prop := c.isDigit = true ∨ c = '-'

theorem BeginsNumber.ne {c d : Char} (hc : BeginsNumber c) (hd : d.isDigit = false)
    (hminus : d ≠ '-') : c ≠ d := by
  rintro rfl
  rcases hc with hc | hc
  · rw [hd] at hc
    cases hc
  · exact hminus hc

theorem toList_toString_ofNat (n : Nat) : (toString (n : Int)).toList = Nat.toDigits 10 n := by
  rw [Int.toString_eq_repr, Int.repr_eq_if, if_pos (Int.natCast_nonneg n), Int.toNat_natCast,
    Nat.repr_eq_ofList_toDigits, String.toList_ofList]

theorem toList_toString_negSucc (n : Nat) :
    (toString (Int.negSucc n)).toList = '-' :: Nat.toDigits 10 (n + 1) := by
  have hneg : ¬ (0 : Int) ≤ Int.negSucc n := by omega
  have habs : (-Int.negSucc n).toNat = n + 1 := by omega
  rw [Int.toString_eq_repr, Int.repr_eq_if, if_neg hneg, habs, Nat.repr_eq_ofList_toDigits]
  simp

theorem beginsNumber_toString (n : Int) :
    ∃ c cs, (toString n).toList = c :: cs ∧ BeginsNumber c := by
  cases n with
  | ofNat n =>
      obtain ⟨first, others, hfirst⟩ := List.exists_cons_of_ne_nil
        (Nat.toDigits_ne_nil (n := n) (b := 10))
      have hdigit : first.isDigit = true :=
        isDigit_of_mem (n := n) (hfirst ▸ List.mem_cons_self)
      exact ⟨first, others, (toList_toString_ofNat n).trans hfirst, Or.inl hdigit⟩
  | negSucc n => exact ⟨'-', _, toList_toString_negSucc n, Or.inr rfl⟩

theorem readInt_toString (n : Int) {rest : List Char} (hrest : EndsNumber rest) :
    readInt ((toString n).toList ++ rest) = some (n, rest) := by
  cases n with
  | ofNat n =>
      rw [Int.ofNat_eq_natCast, toList_toString_ofNat]
      unfold readInt
      split
      · next heq =>
        -- A minus sign in front would be a digit of the number.
        obtain ⟨first, others, hfirst⟩ := List.exists_cons_of_ne_nil
          (Nat.toDigits_ne_nil (n := n) (b := 10))
        have hdigit : first.isDigit = true :=
          isDigit_of_mem (n := n) (hfirst ▸ List.mem_cons_self)
        rw [hfirst, List.cons_append, List.cons.injEq] at heq
        rw [heq.1] at hdigit
        cases hdigit
      · rw [readNat_toDigits n hrest]
        rfl
  | negSucc n =>
      rw [toList_toString_negSucc, List.cons_append, readInt, readNat_toDigits _ hrest]
      rfl

/-! ## Characters that are written -/

theorem isPlain_digitChar : ∀ d < 16, IsPlain d.digitChar := by decide

theorem isPlain_unitEscape {n : Nat} (hn : n < 0x10000) : ∀ c ∈ unitEscape n, IsPlain c := by
  rw [unitEscape, Text.hex_four hn]
  simp only [List.forall_mem_cons, List.not_mem_nil, false_implies, implies_true, and_true]
  exact ⟨by decide, by decide, isPlain_digitChar _ (by omega), isPlain_digitChar _ (by omega),
    isPlain_digitChar _ (by omega), isPlain_digitChar _ (by omega)⟩

theorem isPlain_escapeChar (c : Char) : ∀ d ∈ escapeChar c, IsPlain d := by
  obtain ⟨e, -, -, he, -, heq⟩ | ⟨-, -, hlow, hhigh, heq⟩ | ⟨hc, heq⟩ | ⟨hc, heq⟩ :=
    escapeChar_cases c
  · rw [heq]
    exact List.forall_mem_cons.mpr ⟨by decide, List.forall_mem_singleton.mpr he⟩
  · rw [heq]
    exact List.forall_mem_singleton.mpr (Or.inr ⟨hlow, hhigh⟩)
  · rw [heq]
    exact isPlain_unitEscape (by omega)
  · rw [heq]
    exact List.forall_mem_append.mpr
      ⟨isPlain_unitEscape (halves_lt hc).1, isPlain_unitEscape (halves_lt hc).2⟩

theorem isPlain_quote (text : String) : ∀ c ∈ (quote text).toList, IsPlain c := by
  have hescaped : ∀ c ∈ text.toList.flatMap escapeChar, IsPlain c := by
    intro c hc
    obtain ⟨d, -, hc⟩ := List.mem_flatMap.mp hc
    exact isPlain_escapeChar d c hc
  rw [toList_quote]
  exact List.forall_mem_cons.mpr
    ⟨by decide, List.forall_mem_append.mpr ⟨hescaped, List.forall_mem_singleton.mpr (by decide)⟩⟩

theorem isPlain_of_isDigit {c : Char} (h : c.isDigit = true) : IsPlain c := by
  simp only [Char.isDigit, Bool.and_eq_true, decide_eq_true_eq] at h
  have hlow : 0x30 ≤ c.toNat := h.1
  have hhigh : c.toNat ≤ 0x39 := h.2
  exact Or.inr (by omega)

theorem isPlain_toString (n : Int) : ∀ c ∈ (toString n).toList, IsPlain c := by
  cases n with
  | ofNat n =>
      rw [Int.ofNat_eq_natCast, toList_toString_ofNat]
      exact fun c hc => isPlain_of_isDigit (isDigit_of_mem hc)
  | negSucc n =>
      rw [toList_toString_negSucc]
      exact List.forall_mem_cons.mpr
        ⟨by decide, fun c hc => isPlain_of_isDigit (isDigit_of_mem hc)⟩

end Json

end TypeTrace
