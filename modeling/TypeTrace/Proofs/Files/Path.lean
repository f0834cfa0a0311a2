import Mathlib.Data.List.Basic
import TypeTrace.Files.Path

/-! # Paths and their texts

A path whose parts are names can be read back from its text. The text by which a path from a root is
known leads back to it, from wherever it is seen. So two such paths that are known by the same text are
the same path.
-/

namespace TypeTrace.Path

/-- A part that a text can write: it is neither empty nor a dot, and has no slash. -/
def IsPart (part : String) : Prop := part ≠ "" ∧ part ≠ "." ∧ '/' ∉ part.toList

instance : DecidablePred IsPart := fun _ => inferInstanceAs (Decidable (_ ∧ _))

/-! ## Pieces -/

theorem pieces_of_no_slash {cs : List Char} (h : '/' ∉ cs) (piece : List Char) :
    pieces piece cs = [String.ofList (piece.reverse ++ cs)] := by
  induction cs generalizing piece with
  | nil => simp [pieces]
  | cons c cs ih =>
      have ⟨hc, hcs⟩ := not_or.mp (mt List.mem_cons.mpr h)
      rw [pieces, if_neg (Ne.symm hc), ih hcs]
      simp

theorem pieces_append {cs : List Char} (h : '/' ∉ cs) (piece rest : List Char) :
    pieces piece (cs ++ '/' :: rest) = String.ofList (piece.reverse ++ cs) :: pieces [] rest := by
  induction cs generalizing piece with
  | nil => simp [pieces]
  | cons c cs ih =>
      have ⟨hc, hcs⟩ := not_or.mp (mt List.mem_cons.mpr h)
      rw [List.cons_append, pieces, if_neg (Ne.symm hc), ih hcs]
      simp

theorem pieces_intercalate {parts : List String} (hne : parts ≠ [])
    (h : ∀ part ∈ parts, '/' ∉ part.toList) :
    pieces [] (String.intercalate "/" parts).toList = parts := by
  induction parts with
  | nil => exact absurd rfl hne
  | cons part parts ih =>
      have ⟨hpart, hparts⟩ := List.forall_mem_cons.mp h
      by_cases hempty : parts = []
      · rw [hempty, String.intercalate_singleton, pieces_of_no_slash hpart]
        simp
      · have hcons : (String.intercalate "/" (part :: parts)).toList =
            part.toList ++ '/' :: (String.intercalate "/" parts).toList := by
          rw [String.intercalate_cons_of_ne_nil hempty]
          simp
        rw [hcons, pieces_append hpart, ih hempty hparts]
        simp

theorem no_slash_of_mem_pieces {part : String} {piece cs : List Char} (hpiece : '/' ∉ piece)
    (h : part ∈ pieces piece cs) : '/' ∉ part.toList := by
  induction cs generalizing piece with
  | nil =>
      rw [List.mem_singleton.mp h]
      simpa using hpiece
  | cons c cs ih =>
      rw [pieces] at h
      split at h
      · rcases List.mem_cons.mp h with rfl | h
        · simpa using hpiece
        · exact ih List.not_mem_nil h
      · next hc => exact ih (not_or.mpr ⟨Ne.symm hc, hpiece⟩ ∘ List.mem_cons.mp) h

/-- The parts of a path that a text writes are names. -/
theorem isPart_of_ofText {part text : String} (h : part ∈ (ofText text).parts) : IsPart part := by
  obtain ⟨hpiece, hmeans⟩ := List.mem_filter.mp h
  obtain ⟨hempty, hdot⟩ := of_decide_eq_true hmeans
  exact ⟨hempty, hdot, no_slash_of_mem_pieces List.not_mem_nil hpiece⟩

/-! ## Endings -/

variable {p q root : Path}

theorem name_child (p : Path) (name : String) : (p.child name).name = name := by
  rw [Path.name, child, List.getLast?_concat, Option.getD_some]

/-- A name with an ending ends with it. -/
theorem exists_of_suffix (h : p.suffix ≠ "") : ∃ front, p.name.toList = front ++ p.suffix.toList := by
  unfold suffix at h ⊢
  extract_lets cs ending at h
  extract_lets
  split at h
  · exact absurd rfl h
  · next hthere =>
    have hlength : ending.length + 1 < cs.length := Nat.lt_of_not_le (not_or.mp hthere).2
    have hsplit : cs = (cs.reverse.dropWhile (· ≠ '.')).reverse ++ ending := by
      rw [← List.reverse_append, List.takeWhile_append_dropWhile, List.reverse_reverse]
    rw [if_neg hthere, String.toList_ofList]
    cases hrest : cs.reverse.dropWhile (· ≠ '.') with
    | nil =>
        rw [hrest, List.reverse_nil, List.nil_append] at hsplit
        rw [← hsplit] at hlength
        omega
    | cons dot rest =>
        have hdot : dot = '.' := by
          have hfirst := List.head?_dropWhile_not (fun c => decide (c ≠ '.')) cs.reverse
          rw [hrest] at hfirst
          simpa using hfirst
        refine ⟨rest.reverse, ?_⟩
        rw [hrest, hdot] at hsplit
        simpa using hsplit

/-! ## Texts -/

theorem head_intercalate {parts : List String} (h : ∀ part ∈ parts, IsPart part) :
    (String.intercalate "/" parts).toList.head? ≠ some '/' := by
  cases parts with
  | nil => simp
  | cons part parts =>
      have hpart := h part List.mem_cons_self
      have hchars : part.toList ≠ [] := by
        simpa using hpart.1
      obtain ⟨c, cs, hcs⟩ := List.exists_cons_of_ne_nil hchars
      have hhead : (String.intercalate "/" (part :: parts)).toList.head? = some c := by
        by_cases hempty : parts = []
        · simp [hempty, hcs]
        · rw [String.intercalate_cons_of_ne_nil hempty]
          simp [hcs]
      rw [hhead]
      intro heq
      cases heq
      exact hpart.2.2 (hcs ▸ List.mem_cons_self)

theorem anchorOf_append (anchor : Anchor) {cs : List Char} (h : cs.head? ≠ some '/') :
    anchorOf ((anchorText anchor).toList ++ cs) = anchor := by
  have hnone : cs.takeWhile (· = '/') = [] := by
    cases cs with
    | nil => rfl
    | cons c cs =>
        have hc : c ≠ '/' := by simpa using h
        simp [hc]
  unfold anchorOf
  cases anchor <;> simp [anchorText, hnone]

/-- The pieces of a path's text that mean something are its parts. -/
theorem pieces_text (anchor : Anchor) {parts : List String} (h : ∀ part ∈ parts, IsPart part) :
    (pieces [] ((anchorText anchor).toList ++ (String.intercalate "/" parts).toList)).filter
      (fun part => part ≠ "" ∧ part ≠ ".") = parts := by
  have hparts : (pieces [] (String.intercalate "/" parts).toList).filter
      (fun part => part ≠ "" ∧ part ≠ ".") = parts := by
    by_cases hempty : parts = []
    · rw [hempty]
      decide
    · rw [pieces_intercalate hempty fun part hpart => (h part hpart).2.2,
        List.filter_eq_self]
      exact fun part hpart => by simp [(h part hpart).1, (h part hpart).2.1]
  have hslash (cs : List Char) : pieces [] ('/' :: cs) = "" :: pieces [] cs := rfl
  cases anchor with
  | relative => exact hparts
  | root =>
      change (pieces [] ('/' :: _)).filter _ = _
      rw [hslash, List.filter_cons_of_neg (by simp)]
      exact hparts
  | doubleRoot =>
      change (pieces [] ('/' :: '/' :: _)).filter _ = _
      rw [hslash, hslash, List.filter_cons_of_neg (by simp), List.filter_cons_of_neg (by simp)]
      exact hparts

/-- A path of names is what its text writes. -/
theorem ofText_text (h : ∀ part ∈ p.parts, IsPart part) : ofText p.text = p := by
  obtain ⟨anchor, parts⟩ := p
  dsimp only at h
  have hhead := head_intercalate h
  unfold text
  dsimp only
  split
  · next hempty =>
    have hnil : (anchorText anchor).toList ++ (String.intercalate "/" parts).toList = [] := by
      rw [← String.toList_append, String.isEmpty_iff.mp hempty]
      rfl
    have hanchor := anchorOf_append anchor hhead
    have hparts := pieces_text anchor h
    rw [hnil] at hanchor hparts
    rw [← hanchor, ← hparts]
    decide
  · rw [ofText, String.toList_append, anchorOf_append anchor hhead, pieces_text anchor h]

/-- A text writes a path exactly if its parts are names. -/
theorem exists_ofText_iff : (∃ text, ofText text = p) ↔ ∀ part ∈ p.parts, IsPart part := by
  constructor
  · rintro ⟨text, rfl⟩ part hpart
    exact isPart_of_ofText hpart
  · intro h
    exact ⟨p.text, ofText_text h⟩

/-- A path from a root that some text writes. -/
structure Rooted (p : Path) : Prop where
  absolute : p.isAbsolute = true
  written : ∃ text, ofText text = p

theorem Rooted.anchor_ne (h : p.Rooted) : p.anchor ≠ .relative :=
  of_decide_eq_true h.absolute

theorem Rooted.isPart (h : p.Rooted) : ∀ part ∈ p.parts, IsPart part :=
  exists_ofText_iff.mp h.written

/-! ## Texts seen from a root -/

theorem parts_of_relativeTo? (h : p.relativeTo? root = some q) :
    q.anchor = .relative ∧ p.anchor = root.anchor ∧ p.parts = root.parts ++ q.parts := by
  unfold relativeTo? at h
  split at h
  · next hbelow =>
    cases h
    obtain ⟨hanchor, hprefix⟩ := hbelow
    obtain ⟨rest, hrest⟩ := List.isPrefixOf_iff_prefix.mp hprefix
    refine ⟨rfl, hanchor, ?_⟩
    rw [← hrest, List.drop_left]
  · cases h

theorem stableKey_of_none (h : p.relativeTo? root = none) : p.stableKey root = p.text := by
  rw [stableKey, h, Option.getD_none]

theorem stableKey_of_some (h : p.relativeTo? root = some q) : p.stableKey root = q.text := by
  rw [stableKey, h, Option.getD_some]

/-- A path from a root is the same wherever it is seen from. -/
theorem Rooted.join_eq (h : p.Rooted) (root : Path) : root.join p = p := by
  unfold join
  split
  · next hrelative => exact absurd hrelative h.anchor_ne
  · rfl

/-- What remains of a path below another one leads from there to the path. -/
theorem join_of_relativeTo? (h : p.relativeTo? root = some q) : root.join q = p := by
  obtain ⟨hrelative, hanchor, hparts⟩ := parts_of_relativeTo? h
  rw [join, hrelative, ← hanchor, ← hparts]

/-- The text by which a path from a root is known leads back to it. -/
theorem Rooted.join_stableKey (h : p.Rooted) (root : Path) :
    root.join (ofText (p.stableKey root)) = p := by
  cases hrelative : p.relativeTo? root with
  | none => rw [stableKey_of_none hrelative, ofText_text h.isPart, h.join_eq]
  | some below =>
      -- What remains has none but parts of the path, so its text writes it too.
      obtain ⟨-, -, hparts⟩ := parts_of_relativeTo? hrelative
      have hbelow : ∀ part ∈ below.parts, IsPart part := by
        intro part hpart
        apply h.isPart
        rw [hparts]
        exact List.mem_append_right _ hpart
      rw [stableKey_of_some hrelative, ofText_text hbelow, join_of_relativeTo? hrelative]

/-- Two paths that are known by one text, seen from one root, are one path. -/
theorem Rooted.eq_of_stableKey (hp : p.Rooted) (hq : q.Rooted)
    (h : p.stableKey root = q.stableKey root) : p = q := by
  calc
    p = root.join (ofText (p.stableKey root)) := (hp.join_stableKey root).symm
    _ = root.join (ofText (q.stableKey root)) := by rw [h]
    _ = q := hq.join_stableKey root

/-- A path whose own text is that by which another one is known is that path, whatever root the other
one is seen from. -/
theorem Rooted.eq_of_text (hp : p.Rooted) (hq : q.Rooted) (h : p.text = q.stableKey root) :
    p = q := by
  calc
    p = root.join p := (hp.join_eq root).symm
    _ = root.join (ofText p.text) := by rw [ofText_text hp.isPart]
    _ = root.join (ofText (q.stableKey root)) := by rw [h]
    _ = q := hq.join_stableKey root

end TypeTrace.Path
