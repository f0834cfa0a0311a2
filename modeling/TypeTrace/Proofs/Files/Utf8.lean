import Mathlib.Data.List.Basic
import Mathlib.Tactic.SplitIfs
import TypeTrace.Files.Utf8

/-! # Bytes that are texts

Bytes are read as characters exactly if they are the bytes of these characters, one after the other.
Both ways go through the first character: what its first byte says about the bytes that follow is
what its encoding puts there. A text without a carriage return is read as it is.
-/

namespace TypeTrace.Utf8

theorem toList_toByteArray_loop (bytes : ByteArray) (i : Nat) (read : List UInt8) :
    ByteArray.toList.loop bytes i read = read.reverse ++ bytes.data.toList.drop i := by
  fun_induction ByteArray.toList.loop bytes i read with
  | case1 i read hi ih =>
      have hlt : i < bytes.data.toList.length := hi
      have hget : bytes.get! i = bytes.data.toList[i] := getElem!_pos bytes.data i hi
      rw [ih, List.reverse_cons, List.append_assoc, List.singleton_append, hget,
        List.drop_eq_getElem_cons hlt]
  | case2 i read hi =>
      have hle : bytes.data.toList.length ≤ i := Nat.le_of_not_lt hi
      rw [List.drop_eq_nil_of_le hle, List.append_nil]

theorem bytesOf_ofList (cs : List Char) :
    bytesOf (String.ofList cs) = cs.flatMap String.utf8EncodeChar := by
  rw [bytesOf, String.toUTF8_eq_toByteArray, String.toByteArray_ofList, ByteArray.toList,
    toList_toByteArray_loop]
  simp [List.utf8Encode]

/-! ## The first character -/

/-- What a first byte says, by the number of bytes that follow it. -/
theorem lead?_eq_some {b bits missing low high : Nat} :
    lead? b = some (bits, missing, low, high) ↔
      (b ≤ 0x7f ∧ bits = b ∧ missing = 0 ∧ low = 0 ∧ high = 0) ∨
      (0xc2 ≤ b ∧ b ≤ 0xdf ∧ bits = b - 0xc0 ∧ missing = 1 ∧ low = 0x80 ∧ high = 0xbf) ∨
      (0xe0 ≤ b ∧ b ≤ 0xef ∧ bits = b - 0xe0 ∧ missing = 2 ∧
        low = (if b = 0xe0 then 0xa0 else 0x80) ∧ high = if b = 0xed then 0x9f else 0xbf) ∨
      (0xf0 ≤ b ∧ b ≤ 0xf4 ∧ bits = b - 0xf0 ∧ missing = 3 ∧
        low = (if b = 0xf0 then 0x90 else 0x80) ∧ high = if b = 0xf4 then 0x8f else 0xbf) := by
  unfold lead?
  grind

theorem continuation_zero {value length low high : Nat} {bytes : List UInt8} {r : Nat × Nat} :
    continuation value length low high 0 bytes = .ok r ↔ r = (value, length) := by
  rw [continuation, Except.ok.injEq, eq_comm]

theorem continuation_succ {value length low high missing : Nat} {bytes : List UInt8}
    {r : Nat × Nat} : continuation value length low high (missing + 1) bytes = .ok r ↔
      ∃ b rest, bytes = b :: rest ∧ low ≤ b.toNat ∧ b.toNat ≤ high ∧
        continuation (value * 64 + (b.toNat - 0x80)) (length + 1) 0x80 0xbf missing rest =
          .ok r := by
  cases bytes with
  | nil => simp [continuation]
  | cons b bytes =>
      rw [continuation]
      split
      · next h => simp [h]
      · next h =>
          constructor
          · intro hok
            cases hok
          · rintro ⟨_, _, ⟨rfl⟩, hlow, hhigh, -⟩
            exact absurd ⟨hlow, hhigh⟩ h

theorem ofNat_eq_iff {n : Nat} {b : UInt8} : UInt8.ofNat n = b ↔ n % 256 = b.toNat := by
  rw [← UInt8.toNat_inj, UInt8.toNat_ofNat']

section

variable {c : Char} {b b₁ b₂ b₃ : UInt8}

theorem utf8EncodeChar_eq (c : Char) : String.utf8EncodeChar c =
    if c.toNat ≤ 127 then [.ofNat c.toNat]
    else if c.toNat ≤ 2047 then [.ofNat (c.toNat / 64 % 32 + 192), .ofNat (c.toNat % 64 + 128)]
    else if c.toNat ≤ 65535 then
      [.ofNat (c.toNat / 4096 % 16 + 224), .ofNat (c.toNat / 64 % 64 + 128),
        .ofNat (c.toNat % 64 + 128)]
    else
      [.ofNat (c.toNat / 262144 % 8 + 240), .ofNat (c.toNat / 4096 % 64 + 128),
        .ofNat (c.toNat / 64 % 64 + 128), .ofNat (c.toNat % 64 + 128)] := rfl

theorem utf8EncodeChar_eq_one :
    String.utf8EncodeChar c = [b] ↔ b.toNat ≤ 0x7f ∧ c.toNat = b.toNat := by
  rw [utf8EncodeChar_eq]
  split_ifs <;>
    simp only [List.cons.injEq, ofNat_eq_iff, reduceCtorEq, and_true, and_false, false_iff] <;>
    omega

theorem utf8EncodeChar_eq_two : String.utf8EncodeChar c = [b, b₁] ↔
    0xc2 ≤ b.toNat ∧ b.toNat ≤ 0xdf ∧ 0x80 ≤ b₁.toNat ∧ b₁.toNat ≤ 0xbf ∧
      c.toNat = (b.toNat - 0xc0) * 64 + (b₁.toNat - 0x80) := by
  rw [utf8EncodeChar_eq]
  split_ifs <;>
    simp only [List.cons.injEq, ofNat_eq_iff, reduceCtorEq, and_true, and_false, false_iff] <;>
    omega

theorem utf8EncodeChar_eq_three : String.utf8EncodeChar c = [b, b₁, b₂] ↔
    0xe0 ≤ b.toNat ∧ b.toNat ≤ 0xef ∧
      (if b.toNat = 0xe0 then 0xa0 else 0x80) ≤ b₁.toNat ∧
      b₁.toNat ≤ (if b.toNat = 0xed then 0x9f else 0xbf) ∧ 0x80 ≤ b₂.toNat ∧ b₂.toNat ≤ 0xbf ∧
      c.toNat = ((b.toNat - 0xe0) * 64 + (b₁.toNat - 0x80)) * 64 + (b₂.toNat - 0x80) := by
  have hvalid : c.toNat < 55296 ∨ 57343 < c.toNat ∧ c.toNat < 1114112 := c.valid
  rw [utf8EncodeChar_eq]
  split_ifs <;>
    simp only [List.cons.injEq, ofNat_eq_iff, reduceCtorEq, and_true, and_false, false_iff] <;>
    omega

theorem utf8EncodeChar_eq_four : String.utf8EncodeChar c = [b, b₁, b₂, b₃] ↔
    0xf0 ≤ b.toNat ∧ b.toNat ≤ 0xf4 ∧
      (if b.toNat = 0xf0 then 0x90 else 0x80) ≤ b₁.toNat ∧
      b₁.toNat ≤ (if b.toNat = 0xf4 then 0x8f else 0xbf) ∧ 0x80 ≤ b₂.toNat ∧ b₂.toNat ≤ 0xbf ∧
      0x80 ≤ b₃.toNat ∧ b₃.toNat ≤ 0xbf ∧
      c.toNat = (((b.toNat - 0xf0) * 64 + (b₁.toNat - 0x80)) * 64 + (b₂.toNat - 0x80)) * 64 +
        (b₃.toNat - 0x80) := by
  have hvalid : c.toNat < 55296 ∨ 57343 < c.toNat ∧ c.toNat < 1114112 := c.valid
  rw [utf8EncodeChar_eq]
  split_ifs <;>
    simp only [List.cons.injEq, ofNat_eq_iff, reduceCtorEq, and_true, and_false, false_iff] <;>
    omega

theorem utf8EncodeChar_cases (c : Char) : (∃ b, String.utf8EncodeChar c = [b]) ∨
    (∃ b b₁, String.utf8EncodeChar c = [b, b₁]) ∨
    (∃ b b₁ b₂, String.utf8EncodeChar c = [b, b₁, b₂]) ∨
    ∃ b b₁ b₂ b₃, String.utf8EncodeChar c = [b, b₁, b₂, b₃] := by
  rw [utf8EncodeChar_eq]
  split_ifs <;> simp

end

/-- A first byte and the bytes that it asks for are read as a value of so many bytes. -/
def StartsWith (b : UInt8) (bytes : List UInt8) (value length : Nat) : Prop :=
  ∃ bits missing low high, lead? b.toNat = some (bits, missing, low, high) ∧
    continuation bits 1 low high missing bytes = .ok (value, length)

section

variable {b : UInt8} {bytes : List UInt8} {value length : Nat}

theorem startsWith_of_eq_append {c : Char} {rest : List UInt8}
    (h : b :: bytes = String.utf8EncodeChar c ++ rest) :
    StartsWith b bytes c.toNat (String.utf8EncodeChar c).length := by
  rcases utf8EncodeChar_cases c with ⟨b, hc⟩ | ⟨b, b₁, hc⟩ | ⟨b, b₁, b₂, hc⟩ | ⟨b, b₁, b₂, b₃, hc⟩ <;>
    rw [hc] at h ⊢ <;> cases h
  · obtain ⟨hb, hvalue⟩ := utf8EncodeChar_eq_one.mp hc
    refine ⟨_, _, _, _, lead?_eq_some.mpr (.inl ⟨hb, rfl, rfl, rfl, rfl⟩), ?_⟩
    rw [continuation_zero, hvalue]
    rfl
  · obtain ⟨hlow, hhigh, hlow₁, hhigh₁, hvalue⟩ := utf8EncodeChar_eq_two.mp hc
    refine ⟨_, _, _, _, lead?_eq_some.mpr (.inr (.inl ⟨hlow, hhigh, rfl, rfl, rfl, rfl⟩)), ?_⟩
    refine continuation_succ.mpr ⟨b₁, rest, rfl, hlow₁, hhigh₁, ?_⟩
    rw [continuation_zero, hvalue]
    rfl
  · obtain ⟨hlow, hhigh, hlow₁, hhigh₁, hlow₂, hhigh₂, hvalue⟩ := utf8EncodeChar_eq_three.mp hc
    refine ⟨_, _, _, _, lead?_eq_some.mpr (.inr (.inr (.inl ⟨hlow, hhigh, rfl, rfl, rfl, rfl⟩))), ?_⟩
    refine continuation_succ.mpr ⟨b₁, b₂ :: rest, rfl, hlow₁, hhigh₁, ?_⟩
    refine continuation_succ.mpr ⟨b₂, rest, rfl, hlow₂, hhigh₂, ?_⟩
    rw [continuation_zero, hvalue]
    rfl
  · obtain ⟨hlow, hhigh, hlow₁, hhigh₁, hlow₂, hhigh₂, hlow₃, hhigh₃, hvalue⟩ :=
      utf8EncodeChar_eq_four.mp hc
    refine ⟨_, _, _, _, lead?_eq_some.mpr (.inr (.inr (.inr ⟨hlow, hhigh, rfl, rfl, rfl, rfl⟩))), ?_⟩
    refine continuation_succ.mpr ⟨b₁, b₂ :: b₃ :: rest, rfl, hlow₁, hhigh₁, ?_⟩
    refine continuation_succ.mpr ⟨b₂, b₃ :: rest, rfl, hlow₂, hhigh₂, ?_⟩
    refine continuation_succ.mpr ⟨b₃, rest, rfl, hlow₃, hhigh₃, ?_⟩
    rw [continuation_zero, hvalue]
    rfl

theorem exists_toNat_eq (h : value < 0xd800 ∨ 0xdfff < value ∧ value < 0x110000) :
    ∃ c : Char, c.toNat = value :=
  ⟨Char.ofNatAux value h, rfl⟩

theorem StartsWith.exists_char (h : StartsWith b bytes value length) :
    ∃ c rest, b :: bytes = String.utf8EncodeChar c ++ rest := by
  obtain ⟨bits, missing, low, high, hlead, hrest⟩ := h
  rcases lead?_eq_some.mp hlead with ⟨hb, hr⟩ | ⟨hlow, hhigh, hr⟩ | ⟨hlow, hhigh, hr⟩ |
    ⟨hlow, hhigh, hr⟩
  · obtain ⟨rfl, rfl, rfl, rfl⟩ := hr
    have hvalue := (Prod.mk.inj (continuation_zero.mp hrest)).1
    obtain ⟨c, rfl⟩ : ∃ c : Char, c.toNat = value := exists_toNat_eq (by omega)
    have hc := utf8EncodeChar_eq_one.mpr ⟨hb, hvalue⟩
    exact ⟨c, bytes, by rw [hc]; rfl⟩
  · obtain ⟨hbits, rfl, rfl, rfl⟩ := hr
    rw [hbits] at hrest
    obtain ⟨b₁, rest, rfl, hlow₁, hhigh₁, hrest⟩ := continuation_succ.mp hrest
    have hvalue := (Prod.mk.inj (continuation_zero.mp hrest)).1
    obtain ⟨c, rfl⟩ : ∃ c : Char, c.toNat = value := exists_toNat_eq (by omega)
    have hc := utf8EncodeChar_eq_two.mpr ⟨hlow, hhigh, hlow₁, hhigh₁, hvalue⟩
    exact ⟨c, rest, by rw [hc]; rfl⟩
  · obtain ⟨hbits, rfl, rfl, rfl⟩ := hr
    rw [hbits] at hrest
    obtain ⟨b₁, _, rfl, hlow₁, hhigh₁, hrest⟩ := continuation_succ.mp hrest
    obtain ⟨b₂, rest, rfl, hlow₂, hhigh₂, hrest⟩ := continuation_succ.mp hrest
    have hvalue := (Prod.mk.inj (continuation_zero.mp hrest)).1
    have hvalid : value < 0xd800 ∨ 0xdfff < value ∧ value < 0x110000 := by
      split_ifs at hlow₁ hhigh₁ <;> omega
    obtain ⟨c, rfl⟩ := exists_toNat_eq hvalid
    have hc := utf8EncodeChar_eq_three.mpr
      ⟨hlow, hhigh, hlow₁, hhigh₁, hlow₂, hhigh₂, hvalue⟩
    exact ⟨c, rest, by rw [hc]; rfl⟩
  · obtain ⟨hbits, rfl, rfl, rfl⟩ := hr
    rw [hbits] at hrest
    obtain ⟨b₁, _, rfl, hlow₁, hhigh₁, hrest⟩ := continuation_succ.mp hrest
    obtain ⟨b₂, _, rfl, hlow₂, hhigh₂, hrest⟩ := continuation_succ.mp hrest
    obtain ⟨b₃, rest, rfl, hlow₃, hhigh₃, hrest⟩ := continuation_succ.mp hrest
    have hvalue := (Prod.mk.inj (continuation_zero.mp hrest)).1
    have hvalid : value < 0xd800 ∨ 0xdfff < value ∧ value < 0x110000 := by
      split_ifs at hlow₁ hhigh₁ <;> omega
    obtain ⟨c, rfl⟩ := exists_toNat_eq hvalid
    have hc := utf8EncodeChar_eq_four.mpr
      ⟨hlow, hhigh, hlow₁, hhigh₁, hlow₂, hhigh₂, hlow₃, hhigh₃, hvalue⟩
    exact ⟨c, rest, by rw [hc]; rfl⟩

end

/-! ## All characters -/

theorem decodeFrom_skip (read : List Char) (offset : Nat) (tail bytes : List UInt8) :
    decodeFrom read offset tail.length (tail ++ bytes) =
      decodeFrom read (offset + tail.length) 0 bytes := by
  induction tail generalizing offset with
  | nil => rfl
  | cons b tail ih =>
      rw [List.length_cons, List.cons_append, decodeFrom, ih, Nat.add_assoc, Nat.add_comm 1]

theorem decodeFrom_of_startsWith {b : UInt8} {bytes : List UInt8} {value length : Nat}
    (h : StartsWith b bytes value length) (read : List Char) (offset : Nat) :
    decodeFrom read offset 0 (b :: bytes) =
      decodeFrom (Char.ofNat value :: read) (offset + 1) (length - 1) bytes := by
  obtain ⟨bits, missing, low, high, hlead, hrest⟩ := h
  rw [decodeFrom, hlead]
  dsimp only
  rw [hrest]

theorem decodeFrom_utf8EncodeChar (read : List Char) (offset : Nat) (c : Char)
    (bytes : List UInt8) : decodeFrom read offset 0 (String.utf8EncodeChar c ++ bytes) =
      decodeFrom (c :: read) (offset + (String.utf8EncodeChar c).length) 0 bytes := by
  cases hc : String.utf8EncodeChar c with
  | nil =>
      have hlength := String.length_utf8EncodeChar c
      rw [hc] at hlength
      exact absurd hlength (Nat.ne_of_lt c.utf8Size_pos)
  | cons b tail =>
      have hcons : b :: (tail ++ bytes) = String.utf8EncodeChar c ++ bytes := by
        rw [hc]
        rfl
      rw [List.cons_append, decodeFrom_of_startsWith (startsWith_of_eq_append hcons),
        Char.ofNat_toNat, hc, List.length_cons, Nat.add_sub_cancel, decodeFrom_skip, Nat.add_assoc,
        Nat.add_comm 1]

theorem decodeFrom_flatMap (cs : List Char) (read : List Char) (offset : Nat) :
    decodeFrom read offset 0 (cs.flatMap String.utf8EncodeChar) = .ok (read.reverse ++ cs) := by
  induction cs generalizing read offset with
  | nil => simp [decodeFrom]
  | cons c cs ih =>
      rw [List.flatMap_cons, decodeFrom_utf8EncodeChar, ih, List.reverse_cons, List.append_assoc,
        List.singleton_append]

/-- What is read is what the bytes are the encoding of. The induction takes the bytes of one character
at a time. -/
theorem eq_flatMap_of_decodeFrom {read cs : List Char} {offset : Nat} {bytes : List UInt8}
    (h : decodeFrom read offset 0 bytes = .ok cs) :
    ∃ new : List Char, bytes = new.flatMap String.utf8EncodeChar := by
  induction hsize : bytes.length using Nat.strongRecOn generalizing read offset bytes with
  | ind n ih =>
    cases bytes with
    | nil => exact ⟨[], rfl⟩
    | cons b bytes =>
        have hstarts : ∃ value length, StartsWith b bytes value length := by
          rw [decodeFrom] at h
          split at h
          · cases h
          · next bits missing low high hlead =>
              split at h
              · next value length hrest =>
                  exact ⟨value, length, bits, missing, low, high, hlead, hrest⟩
              · cases h
        obtain ⟨value, length, hstarts⟩ := hstarts
        obtain ⟨c, rest, hbytes⟩ := hstarts.exists_char
        rw [hbytes, decodeFrom_utf8EncodeChar] at h
        have hless : rest.length < n := by
          rw [← hsize, hbytes, List.length_append, String.length_utf8EncodeChar]
          have := c.utf8Size_pos
          omega
        obtain ⟨new, hnew⟩ := ih rest.length hless h rfl
        exact ⟨c :: new, by rw [hbytes, hnew, List.flatMap_cons]⟩

/-! ## Texts -/

theorem normalizeLines_self {cs : List Char} (h : ∀ c ∈ cs, c ≠ '\r') :
    normalizeLines cs = cs := by
  fun_induction normalizeLines cs with
  | case1 cs ih => exact absurd rfl (h '\r' List.mem_cons_self)
  | case2 c cs _ ih =>
      have ⟨hc, hcs⟩ := List.forall_mem_cons.mp h
      rw [if_neg hc, ih hcs]
  | case3 => rfl

/-- The bytes of a text are read as the text. -/
theorem readText_bytesOf {text : String} (h : ∀ c ∈ text.toList, c ≠ '\r') :
    readText (bytesOf text) = .ok text := by
  rw [readText, ← String.ofList_toList (s := text), bytesOf_ofList, decodeFrom_flatMap]
  change Except.ok (String.ofList (normalizeLines text.toList)) = _
  rw [normalizeLines_self h]

/-- Bytes are read exactly if they are the bytes of a text. -/
theorem readText_isOk_iff (bytes : List UInt8) :
    (∃ text, readText bytes = .ok text) ↔ ∃ text, bytes = bytesOf text := by
  constructor
  · rintro ⟨text, h⟩
    unfold readText at h
    cases hread : decodeFrom [] 0 0 bytes with
    | error fault =>
        rw [hread] at h
        cases h
    | ok cs =>
        obtain ⟨new, hnew⟩ := eq_flatMap_of_decodeFrom hread
        exact ⟨String.ofList new, by rw [bytesOf_ofList, hnew]⟩
  · rintro ⟨text, rfl⟩
    rw [← String.ofList_toList (s := text), bytesOf_ofList, readText, decodeFrom_flatMap]
    exact ⟨_, rfl⟩

end TypeTrace.Utf8
