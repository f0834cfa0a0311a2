import TypeTrace.Proofs.Json.Lexical
import TypeTrace.Proofs.Token

/-! # What is written is read back

The text of a value is read as that value, whatever follows it, so long as that does not go on with
a number. A list and an object are read in the same way: between their brackets stand texts of parts
with a comma and the end of a line between them, and each part is read by the reader of its kind.
-/

namespace TypeTrace.Json

/-! ## Space -/

theorem skipSpace_cons {c : Char} (hc : isSpace c = false) (cs : List Char) :
    skipSpace (c :: cs) = c :: cs := by
  simp [skipSpace, hc]

theorem lineBreak_space (depth : Nat) : ∀ c ∈ (lineBreak depth).toList, c = '\n' ∨ c = ' ' := by
  intro c hc
  simp only [lineBreak, String.toList_append, String.toList_ofList, List.mem_append,
    List.mem_replicate] at hc
  rcases hc with hc | ⟨-, rfl⟩
  · exact Or.inl (List.mem_singleton.mp hc)
  · exact Or.inr rfl

theorem skipSpace_lineBreak (depth : Nat) (cs : List Char) :
    skipSpace ((lineBreak depth).toList ++ cs) = skipSpace cs := by
  refine List.dropWhile_append_of_pos fun c hc => ?_
  rcases lineBreak_space depth c hc with rfl | rfl <;> rfl

theorem endsNumber_lineBreak (depth : Nat) (cs : List Char) :
    EndsNumber ((lineBreak depth).toList ++ cs) := by
  have hbreak : (lineBreak depth).toList ++ cs =
      '\n' :: (List.replicate (2 * depth) ' ' ++ cs) := by
    simp [lineBreak]
  rw [hbreak]
  rintro c ⟨rfl⟩
  rfl

variable {cs ds : List Char}

theorem readValue_congr (h : skipSpace cs = skipSpace ds) (fuel : Nat) :
    readValue fuel cs = readValue fuel ds := by
  cases fuel with
  | zero => rw [readValue, readValue]
  | succ fuel => rw [readValue, readValue, h]

theorem readItems_congr (h : skipSpace cs = skipSpace ds) (fuel : Nat) :
    readItems fuel cs = readItems fuel ds := by
  cases fuel with
  | zero => rw [readItems, readItems]
  | succ fuel => rw [readItems, readItems, readValue_congr h]

theorem readMembers_congr (h : skipSpace cs = skipSpace ds) (fuel : Nat) :
    readMembers fuel cs = readMembers fuel ds := by
  cases fuel with
  | zero => rw [readMembers, readMembers]
  | succ fuel => rw [readMembers, readMembers, h]

/-! ## Single values -/

theorem BeginsNumber.isSpace {c : Char} (hc : BeginsNumber c) : isSpace c = false := by
  simp [Json.isSpace, hc.ne (d := ' ') rfl (by decide), hc.ne (d := '\n') rfl (by decide),
    hc.ne (d := '\r') rfl (by decide), hc.ne (d := '\t') rfl (by decide)]

theorem readValue_number {c : Char} (hc : BeginsNumber c) (fuel : Nat) (cs : List Char) :
    readValue (fuel + 1) (c :: cs) = (readInt (c :: cs)).map fun (n, rest) => (int n, rest) := by
  rw [readValue, skipSpace_cons hc.isSpace]
  split
  · next heq => exact absurd (List.cons.inj heq).1 (hc.ne rfl (by decide))
  · next heq => exact absurd (List.cons.inj heq).1 (hc.ne rfl (by decide))
  · next heq => exact absurd (List.cons.inj heq).1 (hc.ne rfl (by decide))
  · next heq => exact absurd (List.cons.inj heq).1 (hc.ne rfl (by decide))
  · next heq => exact absurd (List.cons.inj heq).1 (hc.ne rfl (by decide))
  · next heq => exact absurd (List.cons.inj heq).1 (hc.ne rfl (by decide))
  · rfl

theorem readValue_quote (value : String) (fuel : Nat) (rest : List Char) :
    readValue (fuel + 1) ((quote value).toList ++ rest) = some (text value, rest) := by
  have hread := readText_quote value rest
  rw [toList_quote, List.cons_append] at hread ⊢
  rw [readValue, skipSpace_cons rfl]
  change (readText _).map _ = _
  rw [hread]
  rfl

/-- What the text of a value begins with: neither space nor the end of a list or of an object. -/
def BeginsPart (cs : List Char) : Prop :=
  ∃ c rest, cs = c :: rest ∧ isSpace c = false ∧ c ≠ ']' ∧ c ≠ '\x7d'

theorem BeginsPart.append (h : BeginsPart cs) (rest : List Char) : BeginsPart (cs ++ rest) := by
  obtain ⟨c, cs, rfl, hc⟩ := h
  exact ⟨c, cs ++ rest, rfl, hc⟩

theorem BeginsPart.skipSpace (h : BeginsPart cs) : skipSpace cs = cs := by
  obtain ⟨c, cs, rfl, hc, -⟩ := h
  exact skipSpace_cons hc cs

theorem beginsPart_quote (text : String) : BeginsPart (quote text).toList :=
  ⟨'"', _, toList_quote text, by decide⟩

/-! ## Parts between brackets -/

/-- Texts with a comma and the end of a line between them. -/
def joined (depth : Nat) (texts : List String) : List Char :=
  (("," ++ lineBreak depth).intercalate texts).toList

theorem joined_singleton (depth : Nat) (only : String) : joined depth [only] = only.toList := by
  simp [joined]

theorem joined_cons (depth : Nat) (first : String) {others : List String} (h : others ≠ []) :
    joined depth (first :: others) =
      first.toList ++ ',' :: ((lineBreak depth).toList ++ joined depth others) := by
  rw [joined, String.intercalate_cons_of_ne_nil h]
  simp [joined]

theorem beginsPart_joined (depth : Nat) {texts : List String} (hne : texts ≠ [])
    (h : ∀ t ∈ texts, BeginsPart t.toList) : BeginsPart (joined depth texts) := by
  obtain ⟨first, others, rfl⟩ := List.exists_cons_of_ne_nil hne
  have hfirst := h first List.mem_cons_self
  by_cases hothers : others = []
  · rw [hothers, joined_singleton]
    exact hfirst
  · rw [joined_cons depth first hothers]
    exact hfirst.append _

theorem toList_bracket (opening closing : String) (depth : Nat) (parts : List String) :
    (bracket opening closing depth parts).toList =
      opening.toList ++ if parts = [] then closing.toList else
        (lineBreak (depth + 1)).toList ++ (joined (depth + 1) parts ++
          ((lineBreak depth).toList ++ closing.toList)) := by
  by_cases h : parts = []
  · subst h
    simp [bracket]
  · rw [if_neg h, bracket, if_neg (by simpa using h)]
    simp [joined]

/-- A text is read as a value, if enough fuel is there. -/
def ReadsAs (content : List Char) (value : Json) : Prop :=
  ∀ rest fuel, EndsNumber rest → 2 * content.length ≤ fuel →
    readValue fuel (content ++ rest) = some (value, rest)

/-- Parts are read up to the bracket that closes them. -/
def PartsReadAs {α : Type} (readParts : Nat → Reader α) (closing : Char) (content : List Char)
    (parts : α) : Prop :=
  ∀ rest behind fuel, EndsNumber rest → skipSpace rest = closing :: behind →
    2 * content.length + 1 ≤ fuel → readParts fuel (content ++ rest) = some (parts, behind)

/-- Parts in brackets are read as the value that the parts make up. -/
theorem readsAs_bracket {α : Type} (readParts : Nat → Reader α) {wrap : α → Json}
    {opening closing : String} {o c : Char} (ho : opening.toList = [o]) (hc : closing.toList = [c])
    (hspace : isSpace c = false) {depth : Nat} {texts : List String} {parts : α}
    (hnone : texts = [] → ∀ fuel rest,
      readValue (fuel + 1) (o :: c :: rest) = some (wrap parts, rest))
    (hsome : ∀ fuel cs, BeginsPart (skipSpace cs) → readValue (fuel + 1) (o :: cs) =
      (readParts fuel (skipSpace cs)).map fun (parts, rest) => (wrap parts, rest))
    (hbegin : ∀ t ∈ texts, BeginsPart t.toList)
    (hparts : texts ≠ [] → PartsReadAs readParts c (joined (depth + 1) texts) parts) :
    ReadsAs (bracket opening closing depth texts).toList (wrap parts) := by
  intro rest fuel _ hfuel
  rw [toList_bracket, ho, hc] at hfuel ⊢
  by_cases hne : texts = []
  · rw [if_pos hne] at hfuel ⊢
    obtain ⟨fuel, rfl⟩ : ∃ n, fuel = n + 1 := ⟨fuel - 1, by have : 4 ≤ fuel := hfuel; omega⟩
    exact hnone hne fuel rest
  · rw [if_neg hne] at hfuel ⊢
    simp only [List.length_append, List.length_singleton] at hfuel
    obtain ⟨fuel, rfl⟩ : ∃ n, fuel = n + 1 := ⟨fuel - 1, by omega⟩
    have hpart := (beginsPart_joined (depth + 1) hne hbegin).append
      ((lineBreak depth).toList ++ c :: rest)
    have hskip : skipSpace ((lineBreak (depth + 1)).toList ++ (joined (depth + 1) texts ++
        ((lineBreak depth).toList ++ c :: rest))) =
        joined (depth + 1) texts ++ ((lineBreak depth).toList ++ c :: rest) := by
      rw [skipSpace_lineBreak, hpart.skipSpace]
    have hclose : skipSpace ((lineBreak depth).toList ++ c :: rest) = c :: rest := by
      rw [skipSpace_lineBreak, skipSpace_cons hspace]
    have hread := hparts hne ((lineBreak depth).toList ++ c :: rest) rest fuel
      (endsNumber_lineBreak depth _) hclose (by omega)
    rw [← hskip] at hpart
    have hvalue := hsome fuel _ hpart
    rw [hskip, hread] at hvalue
    simpa only [List.append_assoc, List.singleton_append, List.cons_append, List.nil_append,
      Option.map_some] using hvalue

/-! ## The texts of parts -/

variable {limited : Bool}

theorem renderItems_cons_eq_ok {depth : Nat} {item : Json} {items : List Json}
    {texts : List String} (h : renderItems limited depth (item :: items) = .ok texts) :
    ∃ first others, renderAt limited depth item = .ok first ∧ renderItems limited depth items = .ok others ∧
      texts = first :: others := by
  rw [renderItems] at h
  obtain ⟨first, hfirst, h⟩ := exists_of_bind_eq_ok h
  obtain ⟨others, hothers, h⟩ := exists_of_bind_eq_ok h
  cases h
  exact ⟨first, others, hfirst, hothers, rfl⟩

theorem renderMembers_cons_eq_ok {depth : Nat} {key : String} {value : Json}
    {members : List (String × Json)} {texts : List String}
    (h : renderMembers limited depth ((key, value) :: members) = .ok texts) :
    ∃ first others, renderAt limited depth value = .ok first ∧
      renderMembers limited depth members = .ok others ∧ texts = (quote key ++ ": " ++ first) :: others := by
  rw [renderMembers] at h
  obtain ⟨first, hfirst, h⟩ := exists_of_bind_eq_ok h
  obtain ⟨others, hothers, h⟩ := exists_of_bind_eq_ok h
  cases h
  exact ⟨first, others, hfirst, hothers, rfl⟩

theorem renderAt_int_eq_ok {depth : Nat} {n : Int} {content : String} :
    renderAt limited depth (int n) = .ok content ↔
      (limited = true → Text.isShort n = true) ∧ toString n = content := by
  rw [renderAt]
  cases limited <;> cases Text.isShort n <;> simp

theorem beginsPart_renderAt {depth : Nat} {value : Json} {content : String}
    (h : renderAt limited depth value = .ok content) : BeginsPart content.toList := by
  cases value with
  | null =>
      rw [renderAt] at h
      cases h
      exact ⟨'n', _, rfl, by decide⟩
  | bool value =>
      rw [renderAt] at h
      cases h
      cases value
      · exact ⟨'f', _, rfl, by decide⟩
      · exact ⟨'t', _, rfl, by decide⟩
  | int n =>
      obtain ⟨-, rfl⟩ := renderAt_int_eq_ok.mp h
      obtain ⟨c, cs, hcs, hc⟩ := beginsNumber_toString n
      exact ⟨c, cs, hcs, hc.isSpace, hc.ne rfl (by decide), hc.ne rfl (by decide)⟩
  | text value =>
      rw [renderAt] at h
      cases h
      exact beginsPart_quote value
  | list items =>
      rw [renderAt] at h
      obtain ⟨parts, -, h⟩ := exists_of_bind_eq_ok h
      cases h
      exact ⟨'[', _, toList_bracket "[" "]" depth parts, by decide⟩
  | object members =>
      rw [renderAt] at h
      obtain ⟨parts, -, h⟩ := exists_of_bind_eq_ok h
      cases h
      exact ⟨'\x7b', _, toList_bracket "\x7b" "\x7d" depth parts, by decide⟩
  | foreign sort =>
      rw [renderAt] at h
      cases h

theorem renderItems_eq_ok {depth : Nat} {items : List Json} {texts : List String}
    (h : renderItems limited depth items = .ok texts) :
    (texts = [] ↔ items = []) ∧ ∀ t ∈ texts, BeginsPart t.toList := by
  induction items generalizing texts with
  | nil =>
      rw [renderItems] at h
      cases h
      simp
  | cons item items ih =>
      obtain ⟨first, others, hfirst, hothers, rfl⟩ := renderItems_cons_eq_ok h
      exact ⟨by simp, List.forall_mem_cons.mpr ⟨beginsPart_renderAt hfirst, (ih hothers).2⟩⟩

theorem renderMembers_eq_ok {depth : Nat} {members : List (String × Json)} {texts : List String}
    (h : renderMembers limited depth members = .ok texts) :
    (texts = [] ↔ members = []) ∧ ∀ t ∈ texts, BeginsPart t.toList := by
  induction members generalizing texts with
  | nil =>
      rw [renderMembers] at h
      cases h
      simp
  | cons member members ih =>
      obtain ⟨key, value⟩ := member
      obtain ⟨first, others, -, hothers, rfl⟩ := renderMembers_cons_eq_ok h
      have hkey := (beginsPart_quote key).append (": ".toList ++ first.toList)
      rw [← List.append_assoc, ← String.toList_append, ← String.toList_append] at hkey
      exact ⟨by simp, List.forall_mem_cons.mpr ⟨hkey, (ih hothers).2⟩⟩

/-! ## Lists -/

theorem readItems_last {fuel : Nat} {rest behind : List Char} {item : Json}
    (hitem : readValue fuel cs = some (item, rest)) (hrest : skipSpace rest = ']' :: behind) :
    readItems (fuel + 1) cs = some ([item], behind) := by
  rw [readItems, hitem]
  simp only [Option.bind_eq_bind, Option.bind_some]
  rw [hrest]
  rfl

theorem readItems_more {fuel : Nat} {rest others behind : List Char} {item : Json}
    {items : List Json} (hitem : readValue fuel cs = some (item, rest))
    (hrest : skipSpace rest = ',' :: others)
    (hothers : readItems fuel others = some (items, behind)) :
    readItems (fuel + 1) cs = some (item :: items, behind) := by
  rw [readItems, hitem]
  simp only [Option.bind_eq_bind, Option.bind_some]
  rw [hrest]
  change ((readItems fuel others).bind _) = _
  rw [hothers]
  rfl

/-- What is written for a value is read as the value. -/
def ReadsBack (limited : Bool) (depth : Nat) (value : Json) : Prop :=
  ∀ content, renderAt limited depth value = .ok content → ReadsAs content.toList value

/-- What is written for items is read as the items. -/
def ItemsReadBack (limited : Bool) (depth : Nat) (items : List Json) : Prop :=
  ∀ texts, renderItems limited depth items = .ok texts → items ≠ [] →
    PartsReadAs readItems ']' (joined depth texts) items

theorem itemsReadBack_cons {depth : Nat} {item : Json} {items : List Json}
    (hitem : ReadsBack limited depth item) (hitems : ItemsReadBack limited depth items) :
    ItemsReadBack limited depth (item :: items) := by
  intro texts h _ rest behind fuel hrest hend hfuel
  obtain ⟨first, others, hfirst, hothers, rfl⟩ := renderItems_cons_eq_ok h
  obtain ⟨fuel, rfl⟩ : ∃ n, fuel = n + 1 := ⟨fuel - 1, by omega⟩
  have hnil := (renderItems_eq_ok hothers).1
  by_cases hempty : items = []
  · rw [hnil.mpr hempty, joined_singleton] at hfuel ⊢
    rw [hempty]
    exact readItems_last (hitem first hfirst rest fuel hrest (by omega)) hend
  · have hmore := hitems others hothers hempty rest behind fuel hrest hend
    rw [joined_cons depth first (mt hnil.mp hempty)] at hfuel ⊢
    rw [List.length_append, List.length_cons, List.length_append] at hfuel
    have hskip := skipSpace_lineBreak depth (joined depth others ++ rest)
    rw [← readItems_congr hskip] at hmore
    rw [List.append_assoc, List.cons_append, List.append_assoc]
    refine readItems_more (hitem first hfirst _ fuel ?_ (by omega)) (skipSpace_cons rfl _)
      (hmore (by omega))
    rintro c ⟨rfl⟩
    rfl

/-- After an opening bracket comes the first item, unless the list is empty. -/
theorem readValue_items {fuel : Nat} {c : Char} {cs' : List Char}
    (hcs : skipSpace cs = c :: cs') (hc : c ≠ ']') : readValue (fuel + 1) ('[' :: cs) =
      (readItems fuel (c :: cs')).map fun r => (list r.1, r.2) := by
  rw [readValue, skipSpace_cons rfl]
  simp only [hcs]
  split
  · next heq => exact absurd (List.cons.inj heq).1 hc
  · rfl

theorem readsBack_list {depth : Nat} {items : List Json}
    (hitems : ItemsReadBack limited (depth + 1) items) : ReadsBack limited depth (list items) := by
  intro content h
  rw [renderAt] at h
  obtain ⟨texts, htexts, h⟩ := exists_of_bind_eq_ok h
  cases h
  obtain ⟨hnil, hbegin⟩ := renderItems_eq_ok htexts
  refine readsAs_bracket readItems rfl rfl rfl ?_ ?_ hbegin
    fun hne => hitems texts htexts (mt hnil.mpr hne)
  · intro hempty fuel rest
    rw [hnil.mp hempty, readValue]
    rfl
  · rintro fuel cs ⟨c, cs', hcs, -, hc, -⟩
    rw [hcs]
    exact readValue_items hcs hc

/-! ## Objects -/

/-- A member is its key, a colon and its value. -/
theorem readMembers_succ {fuel : Nat} {afterKey afterColon rest : List Char} {key : String}
    {value : Json} (hkey : readText (skipSpace cs) = some (key, afterKey))
    (hcolon : skipSpace afterKey = ':' :: afterColon)
    (hvalue : readValue fuel afterColon = some (value, rest)) :
    readMembers (fuel + 1) cs =
      match skipSpace rest with
      | '\x7d' :: behind => some ([(key, value)], behind)
      | ',' :: others => do
        let (members, behind) ← readMembers fuel others
        some ((key, value) :: members, behind)
      | _ => none := by
  rw [readMembers, hkey]
  simp only [Option.bind_eq_bind, Option.bind_some]
  rw [hcolon]
  change ((readValue fuel afterColon).bind _) = _
  rw [hvalue]
  rfl

/-- What is written for members is read as the members. -/
def MembersReadBack (limited : Bool) (depth : Nat) (members : List (String × Json)) : Prop :=
  ∀ texts, renderMembers limited depth members = .ok texts → members ≠ [] →
    PartsReadAs readMembers '\x7d' (joined depth texts) members

theorem membersReadBack_cons {depth : Nat} {key : String} {value : Json}
    {members : List (String × Json)} (hvalue : ReadsBack limited depth value)
    (hmembers : MembersReadBack limited depth members) :
    MembersReadBack limited depth ((key, value) :: members) := by
  intro texts h _ rest behind fuel hrest hend hfuel
  obtain ⟨first, others, hfirst, hothers, rfl⟩ := renderMembers_cons_eq_ok h
  obtain ⟨fuel, rfl⟩ : ∃ n, fuel = n + 1 := ⟨fuel - 1, by omega⟩
  have hnil := (renderMembers_eq_ok hothers).1
  have hmember (after : List Char) : (quote key ++ ": " ++ first).toList ++ after =
      (quote key).toList ++ ':' :: ' ' :: (first.toList ++ after) := by simp
  have hkey (after : List Char) :
      readText (skipSpace ((quote key).toList ++ after)) = some (key, after) := by
    rw [((beginsPart_quote key).append after).skipSpace, readText_quote]
  have hread (after : List Char) (hafter : EndsNumber after)
      (hlength : 2 * first.toList.length ≤ fuel) :
      readValue fuel (' ' :: (first.toList ++ after)) = some (value, after) := by
    have hblank : skipSpace (' ' :: (first.toList ++ after)) = skipSpace (first.toList ++ after) :=
      rfl
    rw [readValue_congr hblank]
    exact hvalue first hfirst after fuel hafter hlength
  by_cases hempty : members = []
  · rw [hnil.mpr hempty, joined_singleton] at hfuel ⊢
    rw [String.toList_append, List.length_append] at hfuel
    rw [hmember, readMembers_succ (hkey _) (skipSpace_cons rfl _) (hread rest hrest (by omega)),
      hend, hempty]
    rfl
  · have hmore := hmembers others hothers hempty rest behind fuel hrest hend
    rw [joined_cons depth _ (mt hnil.mp hempty)] at hfuel ⊢
    rw [List.length_append, String.toList_append, List.length_append, List.length_cons,
      List.length_append] at hfuel
    have hskip := skipSpace_lineBreak depth (joined depth others ++ rest)
    rw [← readMembers_congr hskip] at hmore
    have hcomma :
        EndsNumber (',' :: ((lineBreak depth).toList ++ (joined depth others ++ rest))) := by
      rintro c ⟨rfl⟩
      rfl
    rw [List.append_assoc, List.cons_append, List.append_assoc, hmember,
      readMembers_succ (hkey _) (skipSpace_cons rfl _) (hread _ hcomma (by omega)),
      skipSpace_cons rfl]
    change ((readMembers fuel _).bind _) = _
    rw [hmore (by omega)]
    rfl

/-- After an opening brace comes the first member, unless the object is empty. -/
theorem readValue_members {fuel : Nat} {c : Char} {cs' : List Char}
    (hcs : skipSpace cs = c :: cs') (hc : c ≠ '\x7d') : readValue (fuel + 1) ('\x7b' :: cs) =
      (readMembers fuel (c :: cs')).map fun r => (object r.1, r.2) := by
  rw [readValue, skipSpace_cons rfl]
  simp only [hcs]
  split
  · next heq => exact absurd (List.cons.inj heq).1 hc
  · rfl

theorem readsBack_object {depth : Nat} {members : List (String × Json)}
    (hmembers : MembersReadBack limited (depth + 1) members) : ReadsBack limited depth (object members) := by
  intro content h
  rw [renderAt] at h
  obtain ⟨texts, htexts, h⟩ := exists_of_bind_eq_ok h
  cases h
  obtain ⟨hnil, hbegin⟩ := renderMembers_eq_ok htexts
  refine readsAs_bracket readMembers rfl rfl rfl ?_ ?_ hbegin
    fun hne => hmembers texts htexts (mt hnil.mpr hne)
  · intro hempty fuel rest
    rw [hnil.mp hempty, readValue]
    rfl
  · rintro fuel cs ⟨c, cs', hcs, -, -, hc⟩
    rw [hcs]
    exact readValue_members hcs hc

/-! ## Values of all kinds -/

theorem readsBack_bool (depth : Nat) (value : Bool) : ReadsBack limited depth (bool value) := by
  intro content h rest fuel _ hfuel
  rw [renderAt] at h
  cases h
  cases value with
  | false =>
      obtain ⟨fuel, rfl⟩ : ∃ n, fuel = n + 1 := ⟨fuel - 1, by have : 10 ≤ fuel := hfuel; omega⟩
      rw [readValue]
      rfl
  | true =>
      obtain ⟨fuel, rfl⟩ : ∃ n, fuel = n + 1 := ⟨fuel - 1, by have : 8 ≤ fuel := hfuel; omega⟩
      rw [readValue]
      rfl

theorem readsBack_int (depth : Nat) (n : Int) : ReadsBack limited depth (int n) := by
  intro content h rest fuel hrest hfuel
  obtain ⟨-, rfl⟩ := renderAt_int_eq_ok.mp h
  obtain ⟨c, cs, hcs, hc⟩ := beginsNumber_toString n
  have hread := readInt_toString n hrest
  rw [hcs, List.length_cons] at hfuel
  obtain ⟨fuel, rfl⟩ : ∃ n, fuel = n + 1 := ⟨fuel - 1, by omega⟩
  rw [hcs, List.cons_append] at hread ⊢
  rw [readValue_number hc, hread]
  rfl

theorem readsBack_text (depth : Nat) (value : String) : ReadsBack limited depth (text value) := by
  intro content h rest fuel _ hfuel
  rw [renderAt] at h
  cases h
  rw [toList_quote, List.length_cons] at hfuel
  obtain ⟨fuel, rfl⟩ : ∃ n, fuel = n + 1 := ⟨fuel - 1, by omega⟩
  exact readValue_quote value fuel rest

theorem readsBack_null (depth : Nat) : ReadsBack limited depth null := by
  intro content h rest fuel _ hfuel
  rw [renderAt] at h
  cases h
  obtain ⟨fuel, rfl⟩ : ∃ n, fuel = n + 1 := ⟨fuel - 1, by have : 8 ≤ fuel := hfuel; omega⟩
  rw [readValue]
  rfl

mutual

theorem readsBack (depth : Nat) : (value : Json) → ReadsBack limited depth value
  | null => readsBack_null depth
  | bool value => readsBack_bool depth value
  | int n => readsBack_int depth n
  | text value => readsBack_text depth value
  | list items => readsBack_list (itemsReadBack (depth + 1) items)
  | object members => readsBack_object (membersReadBack (depth + 1) members)
  | foreign sort => by
    intro content h
    rw [renderAt] at h
    cases h

theorem itemsReadBack (depth : Nat) : (items : List Json) → ItemsReadBack limited depth items
  | [] => fun _ _ hne => absurd rfl hne
  | item :: items => itemsReadBack_cons (readsBack depth item) (itemsReadBack depth items)

theorem membersReadBack (depth : Nat) :
    (members : List (String × Json)) → MembersReadBack limited depth members
  | [] => fun _ _ hne => absurd rfl hne
  | (_, value) :: members =>
    membersReadBack_cons (readsBack depth value) (membersReadBack depth members)

end

/-- The text of a value, with space behind it, is read as the value. -/
theorem read?_renderAt {value : Json} {content : String} (h : renderAt limited 0 value = .ok content)
    (space : String) (hspace : space.toList.all isSpace = true) :
    read? (content ++ space) = some value := by
  rw [List.all_eq_true] at hspace
  have hskip : skipSpace space.toList = [] := List.dropWhile_eq_nil_iff.mpr hspace
  have hends : EndsNumber space.toList := by
    intro c hc
    have hc := hspace c (List.mem_of_mem_head? hc)
    simp only [isSpace, Bool.or_eq_true, decide_eq_true_eq] at hc
    rcases hc with ((rfl | rfl) | rfl) | rfl <;> rfl
  have hread := readsBack 0 value content h space.toList
    (2 * (content ++ space).toList.length + 1) hends (by simp; omega)
  rw [← String.toList_append] at hread
  rw [read?, hread]
  simp [hskip]

/-! ## What a text is made of -/

/-- A text is written with characters that are plain. -/
def PlainText (text : String) : Prop := ∀ c ∈ text.toList, IsPlain c

instance : DecidablePred PlainText := fun text =>
  decidable_of_iff (text.toList.all fun c => IsPlain c) (by simp [PlainText])

theorem PlainText.append {first second : String} (hfirst : PlainText first)
    (hsecond : PlainText second) : PlainText (first ++ second) := by
  rw [PlainText, String.toList_append]
  exact List.forall_mem_append.mpr ⟨hfirst, hsecond⟩

theorem plainText_lineBreak (depth : Nat) : PlainText (lineBreak depth) := by
  intro c hc
  rcases lineBreak_space depth c hc with rfl | rfl <;> decide

theorem plainText_intercalate {separator : String} (hseparator : PlainText separator)
    {texts : List String} (h : ∀ t ∈ texts, PlainText t) :
    PlainText (separator.intercalate texts) := by
  induction texts with
  | nil => exact fun c hc => absurd hc List.not_mem_nil
  | cons first others ih =>
      have ⟨hfirst, hothers⟩ := List.forall_mem_cons.mp h
      by_cases hempty : others = []
      · rw [hempty, String.intercalate_singleton]
        exact hfirst
      · rw [String.intercalate_cons_of_ne_nil hempty]
        exact (hfirst.append hseparator).append (ih hothers)

theorem plainText_bracket {opening closing : String} (hopening : PlainText opening)
    (hclosing : PlainText closing) (depth : Nat) {texts : List String}
    (h : ∀ t ∈ texts, PlainText t) : PlainText (bracket opening closing depth texts) := by
  have hcomma : PlainText "," := by decide
  have hjoined := plainText_intercalate (hcomma.append (plainText_lineBreak (depth + 1))) h
  rw [bracket]
  split
  · exact hopening.append hclosing
  · exact (((hopening.append (plainText_lineBreak _)).append hjoined).append
      (plainText_lineBreak _)).append hclosing

mutual

theorem plainText_renderAt (depth : Nat) :
    (value : Json) → ∀ content, renderAt limited depth value = .ok content → PlainText content
  | null => by
    rintro content ⟨rfl⟩
    decide
  | bool value => by
    rintro content ⟨rfl⟩
    cases value <;> decide
  | int n => by
    intro content h
    obtain ⟨-, rfl⟩ := renderAt_int_eq_ok.mp h
    exact isPlain_toString n
  | text value => by
    rintro content ⟨rfl⟩
    exact isPlain_quote value
  | list items => by
    intro content h
    rw [renderAt] at h
    obtain ⟨texts, htexts, h⟩ := exists_of_bind_eq_ok h
    cases h
    have hitems := plainText_renderItems (depth + 1) items texts htexts
    exact plainText_bracket (by decide) (by decide) depth hitems
  | object members => by
    intro content h
    rw [renderAt] at h
    obtain ⟨texts, htexts, h⟩ := exists_of_bind_eq_ok h
    cases h
    have hmembers := plainText_renderMembers (depth + 1) members texts htexts
    exact plainText_bracket (by decide) (by decide) depth hmembers
  | foreign sort => by
    intro content h
    rw [renderAt] at h
    cases h

theorem plainText_renderItems (depth : Nat) :
    (items : List Json) → ∀ texts, renderItems limited depth items = .ok texts → ∀ t ∈ texts, PlainText t
  | [] => by
    rintro texts ⟨rfl⟩
    exact List.forall_mem_nil _
  | item :: items => by
    intro texts h
    obtain ⟨first, others, hfirst, hothers, rfl⟩ := renderItems_cons_eq_ok h
    exact List.forall_mem_cons.mpr ⟨plainText_renderAt depth item first hfirst,
      plainText_renderItems depth items others hothers⟩

theorem plainText_renderMembers (depth : Nat) : (members : List (String × Json)) →
    ∀ texts, renderMembers limited depth members = .ok texts → ∀ t ∈ texts, PlainText t
  | [] => by
    rintro texts ⟨rfl⟩
    exact List.forall_mem_nil _
  | (key, value) :: members => by
    intro texts h
    obtain ⟨first, others, hfirst, hothers, rfl⟩ := renderMembers_cons_eq_ok h
    have hkey : PlainText (quote key) := isPlain_quote key
    have hcolon : PlainText ": " := by decide
    exact List.forall_mem_cons.mpr
      ⟨(hkey.append hcolon).append (plainText_renderAt depth value first hfirst),
        plainText_renderMembers depth members others hothers⟩

end

/-- The text of an object ends with its bracket. -/
theorem getLast?_object {depth : Nat} {members : List (String × Json)} {content : String}
    (h : renderAt limited depth (object members) = .ok content) :
    content.toList.getLast? = some '\x7d' := by
  rw [renderAt] at h
  obtain ⟨texts, -, h⟩ := exists_of_bind_eq_ok h
  cases h
  rw [toList_bracket]
  split
  · rfl
  · rw [← List.append_assoc, ← List.append_assoc, ← List.append_assoc]
    exact List.getLast?_concat

/-! ## Values that have a text -/

/-- A text can be written for a value at a depth. -/
def HasText (limited : Bool) (depth : Nat) (value : Json) : Prop :=
  ∃ content, renderAt limited depth value = .ok content

theorem hasText_text (limited : Bool) (depth : Nat) (value : String) :
    HasText limited depth (text value) := ⟨_, rfl⟩

theorem hasText_bool (limited : Bool) (depth : Nat) (value : Bool) :
    HasText limited depth (bool value) := ⟨_, rfl⟩

theorem hasText_ofText? (limited : Bool) (depth : Nat) (value : Option String) :
    HasText limited depth (ofText? value) := by
  cases value with
  | none => exact ⟨_, rfl⟩
  | some value => exact hasText_text limited depth value

theorem hasText_int_iff {depth : Nat} {n : Int} :
    HasText limited depth (int n) ↔ (limited = true → Text.isShort n = true) := by
  unfold HasText
  simp only [renderAt_int_eq_ok, exists_and_left, exists_eq', and_true]

theorem hasText_ofInt?_iff {depth : Nat} {value : Option Int} :
    HasText limited depth (ofInt? value) ↔
      (limited = true → ∀ n ∈ value.toList, Text.isShort n = true) := by
  cases value with
  | none =>
      have hnull : HasText limited depth (ofInt? none) := ⟨_, rfl⟩
      simpa using hnull
  | some n => simpa [ofInt?] using hasText_int_iff

theorem hasText_list_iff {depth : Nat} {items : List Json} :
    HasText limited depth (list items) ↔ ∀ item ∈ items, HasText limited (depth + 1) item := by
  have hitems : HasText limited depth (list items) ↔
      ∃ texts, renderItems limited (depth + 1) items = .ok texts := by
    unfold HasText
    rw [renderAt]
    cases renderItems limited (depth + 1) items <;> simp [bind, Except.bind]
  rw [hitems]
  clear hitems
  induction items with
  | nil => simp [renderItems]
  | cons item items ih =>
      refine Iff.trans ?_ (List.forall_mem_cons.trans (and_congr_right fun _ => ih.symm)).symm
      rw [renderItems, HasText]
      cases renderAt limited (depth + 1) item <;>
        cases renderItems limited (depth + 1) items <;> simp [bind, Except.bind]

theorem hasText_object_iff {depth : Nat} {members : List (String × Json)} :
    HasText limited depth (object members) ↔
      ∀ member ∈ members, HasText limited (depth + 1) member.2 := by
  have hmembers : HasText limited depth (object members) ↔
      ∃ texts, renderMembers limited (depth + 1) members = .ok texts := by
    unfold HasText
    rw [renderAt]
    cases renderMembers limited (depth + 1) members <;> simp [bind, Except.bind]
  rw [hmembers]
  clear hmembers
  induction members with
  | nil => simp [renderMembers]
  | cons member members ih =>
      refine Iff.trans ?_ (List.forall_mem_cons.trans (and_congr_right fun _ => ih.symm)).symm
      rw [renderMembers, HasText]
      cases renderAt limited (depth + 1) member.2 <;>
        cases renderMembers limited (depth + 1) members <;> simp [bind, Except.bind]

/-! ## The limit -/

/-- Where there is a limit, a computation comes to what it comes to without one, or a number is too
long. -/
def Limits {α : Type} (full limited : Except Fault α) : Prop :=
  ∀ a, full = .ok a → limited = .ok a ∨ limited = .error .longNumber

theorem Limits.refl {α : Type} (x : Except Fault α) : Limits x x := fun _ h => .inl h

theorem Limits.bind {α β : Type} {x y : Except Fault α} {f g : α → Except Fault β} (h : Limits x y)
    (hnext : ∀ a, Limits (f a) (g a)) : Limits (x >>= f) (y >>= g) := by
  intro b hb
  obtain ⟨a, ha, hb⟩ := exists_of_bind_eq_ok hb
  rcases h a ha with rfl | rfl
  · exact hnext a b hb
  · exact .inr rfl

mutual

theorem limits_renderAt (depth : Nat) :
    (value : Json) → Limits (renderAt false depth value) (renderAt true depth value)
  | null => .refl _
  | bool _ => .refl _
  | text _ => .refl _
  | foreign _ => .refl _
  | int n => by
    intro content h
    obtain ⟨-, rfl⟩ := renderAt_int_eq_ok.mp h
    rw [renderAt]
    cases Text.isShort n <;> simp
  | list items => by
    rw [renderAt, renderAt]
    exact (limits_renderItems (depth + 1) items).bind fun _ => .refl _
  | object members => by
    rw [renderAt, renderAt]
    exact (limits_renderMembers (depth + 1) members).bind fun _ => .refl _

theorem limits_renderItems (depth : Nat) :
    (items : List Json) → Limits (renderItems false depth items) (renderItems true depth items)
  | [] => .refl _
  | item :: items => by
    rw [renderItems, renderItems]
    refine (limits_renderAt depth item).bind fun first => ?_
    exact (limits_renderItems depth items).bind fun _ => .refl _

theorem limits_renderMembers (depth : Nat) : (members : List (String × Json)) →
    Limits (renderMembers false depth members) (renderMembers true depth members)
  | [] => .refl _
  | (key, value) :: members => by
    rw [renderMembers, renderMembers]
    refine (limits_renderAt depth value).bind fun first => ?_
    exact (limits_renderMembers depth members).bind fun _ => .refl _

end

end TypeTrace.Json
