import TypeTrace.Files.Change
import TypeTrace.Proofs.Files.Places
import TypeTrace.Proofs.Stateful

/-! # Directories made on the way

The directories that a path leads through are made one after the other, each where nothing stood. That
is all that is done, whether every one of them can be made or not.
-/

namespace TypeTrace

namespace Path

theorem parent_child (p : Path) (name : String) : (p.child name).parent = p := by
  simp [parent, child]

theorem parent_append_name {p : Path} (hparts : p.parts ≠ []) :
    p.parent.parts ++ [p.name] = p.parts := by
  rw [parent, name, List.getLast?_eq_some_getLast hparts]
  exact List.dropLast_append_getLast hparts

end Path

namespace FileTree

variable {files middle after : FileTree} {p : Path} {place : Location}

/-! ## Growth -/

/-- A tree has become another one in which directories stand where nothing stood, and all else is as
before. -/
def Grown (files after : FileTree) : Prop :=
  ∀ place, after.get? place = files.get? place ∨
    files.get? place = none ∧ after.get? place = some .directory

theorem Grown.trans (h : files.Grown middle) (h' : middle.Grown after) : files.Grown after := by
  intro place
  rcases h' place with hsame' | ⟨hnone', hmade'⟩
  · rw [hsame']
    exact h place
  · rcases h place with hsame | ⟨-, hmade⟩
    · exact Or.inr ⟨hsame ▸ hnone', hmade'⟩
    · rw [hnone'] at hmade
      cases hmade

/-- What stood nowhere and has been taken away again leaves no trace. -/
theorem Grown.of_erase (h : files.Grown middle) (hplace : middle.get? place = none)
    (helse : ∀ other, other ≠ place → after.get? other = middle.get? other) :
    files.Grown (after.erase place) := by
  refine h.trans fun other => Or.inl ?_
  by_cases heq : other = place
  · have hnil : place ≠ [] := by
      rintro rfl
      cases hplace
    rw [heq, get?_erase_self hnil, hplace]
  · rw [get?_erase_ne heq, helse other heq]

/-- A part of a path names a location, once the parts before it are resolved. -/
def OnTheWay (files : FileTree) (p : Path) (place : Location) : Prop :=
  ∃ above name rest here n, p.parts = above ++ name :: rest ∧ name ≠ ".." ∧
    files.Resolves (files.base p) above here n ∧ place = here ++ [name]

/-- What is on the way of a path's beginning is on its way. -/
theorem OnTheWay.of_parent (h : files.OnTheWay p.parent place) : files.OnTheWay p place := by
  obtain ⟨above, name, rest, here, n, hparts, hname, hresolves, rfl⟩ := h
  have hnil : p.parts ≠ [] := by
    intro hnil
    rw [Path.parent, hnil] at hparts
    simp at hparts
  refine ⟨above, name, rest ++ [p.name], here, n, ?_, hname, hresolves, rfl⟩
  rw [← Path.parent_append_name hnil, hparts, List.append_assoc, List.cons_append]

/-- A tree has grown by directories that are on the way of a path. -/
structure GrownAlong (files : FileTree) (p : Path) (after : FileTree) : Prop where
  current : after.current = files.current
  get? : ∀ place, after.get? place = files.get? place ∨
    files.get? place = none ∧ after.get? place = some .directory ∧ files.OnTheWay p place

theorem GrownAlong.refl (files : FileTree) (p : Path) : files.GrownAlong p files :=
  ⟨rfl, fun _ => Or.inl rfl⟩

theorem GrownAlong.grown (h : files.GrownAlong p after) : files.Grown after :=
  fun place => (h.get? place).imp_right fun ⟨hnone, hmade, _⟩ => ⟨hnone, hmade⟩

/-- A tree that has grown has the links that it had. -/
theorem GrownAlong.link_iff (h : files.GrownAlong p after) (place : Location) (text : String) :
    after.get? place = some (.link text) ↔ files.get? place = some (.link text) := by
  rcases h.get? place with hsame | ⟨hnone, hmade, -⟩
  · rw [hsame]
  · simp [hnone, hmade]

theorem GrownAlong.onTheWay (h : files.GrownAlong p after) {q : Path}
    (hway : after.OnTheWay q place) : files.OnTheWay q place := by
  obtain ⟨above, name, rest, here, n, hparts, hname, hresolves, hplace⟩ := hway
  refine ⟨above, name, rest, here, n, hparts, hname, ?_, hplace⟩
  rw [base, ← h.current]
  exact hresolves.congr h.link_iff

theorem GrownAlong.trans (h : files.GrownAlong p middle) (h' : middle.GrownAlong p after) :
    files.GrownAlong p after where
  current := h'.current.trans h.current
  get? place := by
    rcases h'.get? place with hsame' | ⟨hnone', hmade', hway'⟩
    · rw [hsame']
      exact h.get? place
    · rcases h.get? place with hsame | ⟨-, hmade, -⟩
      · exact Or.inr ⟨hsame ▸ hnone', hmade', h.onTheWay hway'⟩
      · rw [hnone'] at hmade
        cases hmade

theorem grownAlong_makeDirectory (hplace : files.get? place = none) (hway : files.OnTheWay p place) :
    files.GrownAlong p (files.change (.makeDirectory place)) where
  current := current_change files _
  get? other := by
    by_cases heq : other = place
    · have hnil : place ≠ [] := by
        rintro rfl
        cases hplace
      rw [heq]
      exact Or.inr ⟨hplace, get?_put_self hnil, hway⟩
    · exact Or.inl (get?_put_ne heq)

/-! ## Directories -/

/-- The changes make directories one after the other, each on the way of a path and where nothing is. -/
inductive Makes : FileTree → Path → List Change → Prop where
  | nil (files : FileTree) (p : Path) : Makes files p []
  | cons {files : FileTree} {p : Path} {place : Location} {changes : List Change}
      (hplace : files.get? place = none) (hway : files.OnTheWay p place)
      (h : Makes (files.change (.makeDirectory place)) p changes) :
      Makes files p (.makeDirectory place :: changes)

theorem Makes.append {first second : List Change} (h : files.Makes p first)
    (h' : (files.changeAll first).Makes p second) : files.Makes p (first ++ second) := by
  induction h with
  | nil files p => exact h'
  | cons hplace hway h ih => exact .cons hplace hway (ih h')

theorem Makes.grownAlong {changes : List Change} (h : files.Makes p changes) :
    files.GrownAlong p (files.changeAll changes) := by
  induction h with
  | nil files p => exact .refl files p
  | cons hplace hway h ih => exact (grownAlong_makeDirectory hplace hway).trans ih

theorem Makes.of_parent {changes : List Change} (h : files.Makes p.parent changes) :
    files.Makes p changes := by
  generalize hq : p.parent = q at h
  induction h with
  | nil files _ => exact .nil files p
  | cons hplace hway h ih => exact .cons hplace (hq ▸ hway).of_parent (ih hq)

theorem Makes.eq_makeDirectory {changes : List Change} (h : files.Makes p changes) :
    ∀ c ∈ changes, ∃ place, c = .makeDirectory place := by
  induction h with
  | nil files p => exact List.forall_mem_nil _
  | cons _ _ _ ih => exact List.forall_mem_cons.mpr ⟨⟨_, rfl⟩, ih⟩

theorem slot?_eq_ok (h : files.slot? p = .ok place) :
    ∃ above, files.locate p.parent = .ok above ∧ files.get? above = some .directory ∧
      place = above ++ [p.name] := by
  unfold slot? at h
  split at h
  · cases h
  · next above hlocate =>
    split at h
    · next habove =>
      cases h
      exact ⟨above, hlocate, habove, rfl⟩
    · cases h
    · cases h

theorem slot?_ne_nil (h : files.slot? p = .ok place) : place ≠ [] := by
  obtain ⟨above, -, -, rfl⟩ := slot?_eq_ok h
  exact List.append_ne_nil_of_right_ne_nil _ (List.cons_ne_nil _ _)

/-- A slot is the location that a path names. -/
theorem locateSelf_of_slot? (hparts : p.parts ≠ []) (hname : p.name ≠ "..")
    (h : files.slot? p = .ok place) : files.locateSelf p = .ok place := by
  obtain ⟨above, hlocate, habove, rfl⟩ := slot?_eq_ok h
  have hway : files.follow false linkLimit (files.base p) (p.parent.parts ++ [p.name]) =
      .ok (above ++ [p.name]) :=
    follow_child (fun _ _ hget _ => hget) hname habove (by simp) hlocate
  rw [Path.parent_append_name hparts] at hway
  exact hway

theorem makeDirectory?_eq_ok (h : files.makeDirectory? p = .ok place) :
    files.get? place = none ∧ files.OnTheWay p place := by
  unfold makeDirectory? at h
  split at h
  · cases h
  · next hparts =>
    split at h
    · cases h
    · next hslot =>
      split at h
      · cases h
      · next hfree =>
        cases h
        obtain ⟨hname, hnone⟩ := not_or.mp hfree
        obtain ⟨above, hlocate, -, rfl⟩ := slot?_eq_ok hslot
        obtain ⟨n, -, hresolves⟩ := exists_resolves_of_locate hlocate
        have hsplit := Path.parent_append_name (by simpa using hparts)
        exact ⟨by simpa using hnone, _, _, [], above, n, hsplit.symm, hname, hresolves, rfl⟩

end FileTree

/-! ## Plans -/

namespace Plan

variable {ε α β : Type} {R : FileTree × List Change → FileTree × List Change → Prop}

/-- Whether a plan fails or not, what it comes to is in a relation with what it began with. -/
def Leads (R : FileTree × List Change → FileTree × List Change → Prop) (plan : Plan ε α) : Prop :=
  ∀ before, match plan before with
    | .ok _ after => R before after
    | .error _ after => R before after

theorem Leads.bind (htrans : ∀ s t u, R s t → R t u → R s u) {plan : Plan ε α}
    {next : α → Plan ε β} (h : plan.Leads R) (hnext : ∀ a, (next a).Leads R) :
    (plan >>= next).Leads R := by
  intro s
  have hplan := h s
  cases hs : plan s with
  | error fault t =>
      rw [hs] at hplan
      rw [Stateful.bind_error hs]
      exact hplan
  | ok a t =>
      rw [hs] at hplan
      rw [Stateful.bind_ok hs]
      have hrest := hnext a t
      split at hrest <;> exact htrans _ _ _ hplan hrest

/-- If a plan fails, then with a fault of a kind. -/
def FailsWith (F : ε → Prop) (plan : Plan ε α) : Prop :=
  ∀ s fault t, plan s = .error fault t → F fault

theorem FailsWith.bind {F : ε → Prop} {plan : Plan ε α} {next : α → Plan ε β}
    (h : plan.FailsWith F) (hnext : ∀ a, (next a).FailsWith F) : (plan >>= next).FailsWith F := by
  intro s fault u hfault
  rcases Stateful.of_bind_eq_error hfault with hplan | ⟨a, t, -, hrest⟩
  · exact h s fault u hplan
  · exact hnext a t fault u hrest

/-- Between two moments directories have been made on the way of a path, and that is recorded. -/
def Paved (p : Path) (before after : FileTree × List Change) : Prop :=
  ∃ made, before.1.Makes p made ∧ after = (before.1.changeAll made, before.2 ++ made)

theorem Paved.refl (p : Path) (s : FileTree × List Change) : Paved p s s :=
  ⟨[], .nil _ _, by simp [FileTree.changeAll]⟩

theorem Paved.trans {p : Path} (s t u : FileTree × List Change) (hst : Paved p s t)
    (htu : Paved p t u) : Paved p s u := by
  obtain ⟨first, hfirst, rfl⟩ := hst
  obtain ⟨second, hsecond, rfl⟩ := htu
  exact ⟨first ++ second, hfirst.append hsecond,
    by rw [FileTree.changeAll_append, List.append_assoc]⟩

/-- A plan does nothing but make directories on the way of a path, and a fault of it names one path
only. -/
structure Paves {α : Type} (p : Path) (plan : Plan OsError α) : Prop where
  leads : plan.Leads (Paved p)
  fault : plan.FailsWith fun error => error.other = none

theorem Paves.bind {α β : Type} {p : Path} {plan : Plan OsError α} {next : α → Plan OsError β}
    (h : plan.Paves p) (hnext : ∀ a, (next a).Paves p) : (plan >>= next).Paves p :=
  ⟨Leads.bind Paved.trans h.leads fun a => (hnext a).leads, h.fault.bind fun a => (hnext a).fault⟩

theorem Paves.of_parent {α : Type} {p : Path} {plan : Plan OsError α} (h : plan.Paves p.parent) :
    plan.Paves p := by
  refine ⟨fun before => ?_, h.fault⟩
  have hleads := h.leads before
  split at hleads <;>
    exact hleads.imp fun _ ⟨hmakes, hafter⟩ => ⟨hmakes.of_parent, hafter⟩

theorem paves_files (p : Path) : files.Paves p := by
  constructor
  · exact fun s => Paved.refl p s
  · intro s fault t h
    cases h

theorem paves_makeDirectory (p : Path) : (makeDirectory p).Paves p := by
  constructor
  · rintro ⟨files, made⟩
    unfold makeDirectory
    rw [Stateful.bind_ok (rfl : Plan.files (files, made) = .ok files (files, made))]
    cases hplace : files.makeDirectory? p with
    | ok place =>
        obtain ⟨hnone, hway⟩ := FileTree.makeDirectory?_eq_ok hplace
        exact ⟨[.makeDirectory place], .cons hnone hway (.nil _ _), rfl⟩
    | error cause => cases files.isDirectory p <;> exact Paved.refl p _
  · refine (paves_files p).fault.bind fun files s error t h => ?_
    cases hplace : files.makeDirectory? p with
    | ok place =>
        rw [hplace] at h
        cases h
    | error cause =>
        rw [hplace] at h
        cases hthere : files.isDirectory p
        all_goals
          simp only [hthere] at h
          cases h
        rfl

theorem paves_makeDirectories (p : Path) (fuel : Nat) : (makeDirectories p fuel).Paves p := by
  induction fuel generalizing p with
  | zero => exact paves_makeDirectory p
  | succ fuel ih =>
      refine (paves_files p).bind fun files => ?_
      split
      · exact (ih p.parent).of_parent.bind fun _ => paves_makeDirectory p
      · exact paves_makeDirectory p

end Plan

end TypeTrace
