import Mathlib.Data.List.Forall2

/-! # Results that may be missing

What is known of a computation that has given back a result, or that has failed: of the steps that it
took one after the other, and of the elements of a list that it went through. A look-up is of this
sort as well.
-/

namespace TypeTrace

variable {ε α β : Type} {x : Except ε α} {f : α → Except ε β}

theorem exists_of_bind_eq_ok {b : β} (h : (x >>= f) = .ok b) : ∃ a, x = .ok a ∧ f a = .ok b := by
  cases x with
  | error fault => cases h
  | ok a => exact ⟨a, rfl, h⟩

theorem of_bind_eq_error {fault : ε} (h : (x >>= f) = .error fault) :
    x = .error fault ∨ ∃ a, x = .ok a ∧ f a = .error fault := by
  cases x with
  | error cause =>
      cases h
      exact Or.inl rfl
  | ok a => exact Or.inr ⟨a, rfl, h⟩

theorem exists_of_isOk (h : x.isOk = true) : ∃ a, x = .ok a := by
  cases x with
  | error fault => cases h
  | ok a => exact ⟨a, rfl⟩

theorem eq_ok_of_mapError {ε' : Type} {g : ε → ε'} {a : α} (h : x.mapError g = .ok a) : x = .ok a := by
  cases x with
  | error fault => cases h
  | ok b => exact congrArg Except.ok (Except.ok.inj h)

theorem eq_ok_of_toOption {a : α} (h : x.toOption = some a) : x = .ok a := by
  cases x with
  | error fault => cases h
  | ok b => exact congrArg Except.ok (Option.some.inj h)

/-- Why a computation has failed, if it has. -/
def fault? : Except ε α → Option ε
  | .ok _ => none
  | .error fault => some fault

theorem eq_error_of_fault? {fault : ε} (h : fault? x = some fault) : x = .error fault := by
  cases x with
  | error cause => exact congrArg Except.error (Option.some.inj h)
  | ok a => cases h

/-! ## Lists -/

theorem forall₂_of_mapM {as : List α} {bs : List β} (h : as.mapM f = .ok bs) :
    List.Forall₂ (fun a b => f a = .ok b) as bs := by
  induction as generalizing bs with
  | nil =>
      cases h
      exact .nil
  | cons a as ih =>
      rw [List.mapM_cons] at h
      obtain ⟨b, hb, h⟩ := exists_of_bind_eq_ok h
      obtain ⟨others, hothers, h⟩ := exists_of_bind_eq_ok h
      cases h
      exact .cons hb (ih hothers)

theorem mapM_of_forall₂ {as : List α} {bs : List β} (h : List.Forall₂ (fun a b => f a = .ok b) as bs) :
    as.mapM f = .ok bs := by
  induction h with
  | nil => rfl
  | cons hab _ ih =>
      rw [List.mapM_cons, hab, ih]
      rfl

theorem exists_mapM {as : List α} (h : ∀ a ∈ as, ∃ b, f a = .ok b) :
    ∃ bs, as.mapM f = .ok bs := by
  induction as with
  | nil => exact ⟨[], rfl⟩
  | cons a as ih =>
      have ⟨ha, has⟩ := List.forall_mem_cons.mp h
      obtain ⟨b, hb⟩ := ha
      obtain ⟨bs, hbs⟩ := ih has
      exact ⟨b :: bs, by rw [List.mapM_cons, hb, hbs]; rfl⟩

theorem mapM_map_of_mem {f : α → β} {g : β → Option α} {as : List α}
    (h : ∀ a ∈ as, g (f a) = some a) : (as.map f).mapM g = some as := by
  induction as with
  | nil => rfl
  | cons a as ih =>
      have ⟨ha, has⟩ := List.forall_mem_cons.mp h
      rw [List.map_cons, List.mapM_cons, ha, ih has]
      rfl

theorem exists_of_mapM_eq_error {as : List α} {fault : ε} (h : as.mapM f = .error fault) :
    ∃ a ∈ as, f a = .error fault := by
  induction as with
  | nil => cases h
  | cons a as ih =>
      rw [List.mapM_cons] at h
      rcases of_bind_eq_error h with ha | ⟨b, -, h⟩
      · exact ⟨a, List.mem_cons_self, ha⟩
      · rcases of_bind_eq_error h with has | ⟨bs, -, h⟩
        · obtain ⟨a', ha', hfails⟩ := ih has
          exact ⟨a', List.mem_cons_of_mem _ ha', hfails⟩
        · cases h

/-- Something bad comes in a list, and there is nothing but good before it. -/
inductive Reaches (good bad : α → Prop) : List α → Prop where
  | here {a : α} {as : List α} (h : bad a) : Reaches good bad (a :: as)
  | later {a : α} {as : List α} (ha : good a) (has : Reaches good bad as) :
      Reaches good bad (a :: as)

theorem exists_mapM_error_iff {P : ε → Prop} {good bad : α → Prop}
    (hgood : ∀ a, good a ↔ ∃ b, f a = .ok b)
    (hbad : ∀ a, bad a ↔ ∃ fault, f a = .error fault ∧ P fault) (as : List α) :
    (∃ fault, as.mapM f = .error fault ∧ P fault) ↔ Reaches good bad as := by
  induction as with
  | nil =>
      constructor
      · rintro ⟨fault, ⟨⟩, -⟩
      · rintro ⟨⟩
  | cons a as ih =>
      rw [List.mapM_cons]
      constructor
      · rintro ⟨fault, hfault, hP⟩
        rcases of_bind_eq_error hfault with ha | ⟨b, ha, hrest⟩
        · exact .here ((hbad a).mpr ⟨fault, ha, hP⟩)
        · rcases of_bind_eq_error hrest with has | ⟨bs, -, hnever⟩
          · exact .later ((hgood a).mpr ⟨b, ha⟩) (ih.mp ⟨fault, has, hP⟩)
          · cases hnever
      · intro h
        cases h with
        | here h =>
            obtain ⟨fault, ha, hP⟩ := (hbad a).mp h
            exact ⟨fault, by rw [ha]; rfl, hP⟩
        | later ha has =>
            obtain ⟨b, hb⟩ := (hgood a).mp ha
            obtain ⟨fault, hfault, hP⟩ := ih.mpr has
            exact ⟨fault, by rw [hb, hfault]; rfl, hP⟩

theorem exists_of_mem_left {R : α → β → Prop} {as : List α} {bs : List β}
    (h : List.Forall₂ R as bs) {a : α} (ha : a ∈ as) : ∃ b ∈ bs, R a b := by
  induction h with
  | nil => cases ha
  | cons hab _ ih =>
      rcases List.mem_cons.mp ha with rfl | ha
      · exact ⟨_, List.mem_cons_self, hab⟩
      · obtain ⟨b, hb, hab⟩ := ih ha
        exact ⟨b, List.mem_cons_of_mem _ hb, hab⟩

theorem exists_of_mem_right {R : α → β → Prop} {as : List α} {bs : List β}
    (h : List.Forall₂ R as bs) {b : β} (hb : b ∈ bs) : ∃ a ∈ as, R a b := by
  obtain ⟨a, ha, hab⟩ := exists_of_mem_left h.flip hb
  exact ⟨a, ha, hab⟩

/-! ## Look-ups -/

section

variable {κ : Type} [BEq κ] [LawfulBEq κ] {entries : List (κ × α)} {key : κ} {a : α}

theorem mem_of_lookup (h : entries.lookup key = some a) : (key, a) ∈ entries := by
  obtain ⟨before, behind, rfl, -⟩ := List.lookup_eq_some_iff.mp h
  simp

theorem lookup_of_mem (hdistinct : (entries.map Prod.fst).Nodup) (h : (key, a) ∈ entries) :
    entries.lookup key = some a := by
  induction entries with
  | nil => cases h
  | cons first entries ih =>
      have ⟨hfirst, hothers⟩ := List.nodup_cons.mp hdistinct
      rcases List.mem_cons.mp h with rfl | h
      · simp
      · have hne : key ≠ first.1 := by
          rintro rfl
          exact hfirst (List.mem_map.mpr ⟨_, h, rfl⟩)
        rw [List.lookup_cons, beq_eq_false_iff_ne.mpr hne]
        exact ih hothers h

end

end TypeTrace
