import Mathlib.Data.List.Basic
import TypeTrace.Files.Change

/-! # What stands where after a change

A change at one location leaves what stands elsewhere, and only a move can put a link anywhere. A
path that has led to a directory still leads there if directories and links are as before.
-/

namespace TypeTrace.FileTree

variable {files after : FileTree} {place other : Location} {entry : FileEntry}

/-! ## Look-ups -/

theorem get?_nil (files : FileTree) : files.get? [] = some .directory := rfl

theorem get?_of_ne_nil (hplace : place ≠ []) : files.get? place = files.entries.lookup place := by
  rw [get?, if_neg (by simpa using hplace)]

theorem lookup_replace_self {entries : List (Location × FileEntry)}
    (h : entries.any fun (location, _) => location == place) :
    (entries.map fun (location, old) =>
      (location, if location = place then entry else old)).lookup place = some entry := by
  induction entries with
  | nil => cases h
  | cons first entries ih =>
      obtain ⟨location, old⟩ := first
      by_cases heq : location = place
      · simp [heq]
      · have hother : (place == location) = false := by simpa using Ne.symm heq
        have hrest : entries.any fun (location, _) => location == place := by
          simpa [List.any_cons, heq] using h
        rw [List.map_cons, List.lookup_cons, hother]
        exact ih hrest

theorem lookup_replace_ne (h : other ≠ place) (entries : List (Location × FileEntry)) :
    (entries.map fun (location, old) =>
      (location, if location = place then entry else old)).lookup other =
        entries.lookup other := by
  induction entries with
  | nil => rfl
  | cons first entries ih =>
      obtain ⟨location, old⟩ := first
      rw [List.map_cons, List.lookup_cons, List.lookup_cons, ih]
      by_cases heq : location = place
      · have hother : (other == location) = false := by simpa [heq] using h
        simp [hother]
      · simp [heq]

theorem lookup_eq_none {entries : List (Location × FileEntry)}
    (h : ¬ entries.any fun (location, _) => location == place) : entries.lookup place = none := by
  have hne : ∀ item ∈ entries, item.1 ≠ place := fun item hitem heq =>
    h (List.any_eq_true.mpr ⟨item, hitem, beq_iff_eq.mpr heq⟩)
  rw [List.lookup_eq_none_iff]
  exact fun item hitem => bne_iff_ne.mpr (hne item hitem).symm

theorem get?_put_self (hplace : place ≠ []) :
    (files.put place entry).get? place = some entry := by
  rw [get?_of_ne_nil hplace, put]
  split
  · next h => exact lookup_replace_self h
  · next h => simp [List.lookup_append, lookup_eq_none h]

theorem get?_put_ne (h : other ≠ place) :
    (files.put place entry).get? other = files.get? other := by
  by_cases hnil : other = []
  · rw [hnil, get?_nil, get?_nil]
  · rw [get?_of_ne_nil hnil, get?_of_ne_nil hnil, put]
    split
    · exact lookup_replace_ne h files.entries
    · have hother : (other == place) = false := by simpa using h
      simp [List.lookup_append, List.lookup_cons, hother]

theorem get?_erase_ne (h : other ≠ place) : (files.erase place).get? other = files.get? other := by
  by_cases hnil : other = []
  · rw [hnil, get?_nil, get?_nil]
  · rw [get?_of_ne_nil hnil, get?_of_ne_nil hnil, erase]
    induction files.entries with
    | nil => rfl
    | cons first entries ih =>
        obtain ⟨location, old⟩ := first
        by_cases heq : location = place
        · have hother : (other == location) = false := by simpa [heq] using h
          rw [List.lookup_cons, hother, List.filter_cons_of_neg (by simp [heq])]
          exact ih
        · simp [heq, List.lookup_cons, ih]

theorem get?_erase_self (hplace : place ≠ []) : (files.erase place).get? place = none := by
  rw [get?_of_ne_nil hplace]
  refine lookup_eq_none ?_
  simp [erase]

theorem get?_of_get?_erase (h : (files.erase place).get? other = some entry) :
    files.get? other = some entry := by
  by_cases heq : other = place
  · by_cases hnil : place = []
    · rw [heq, hnil, get?_nil] at h ⊢
      exact h
    · rw [heq, get?_erase_self hnil] at h
      cases h
  · rwa [get?_erase_ne heq] at h

/-! ## Changes -/

theorem changeAll_append (files : FileTree) (first second : List Change) :
    files.changeAll (first ++ second) = (files.changeAll first).changeAll second :=
  List.foldl_append

theorem changeAll_concat (files : FileTree) (changes : List Change) (c : Change) :
    files.changeAll (changes ++ [c]) = (files.changeAll changes).change c := by
  rw [changeAll_append]
  rfl

theorem current_put (files : FileTree) (place : Location) (entry : FileEntry) :
    (files.put place entry).current = files.current := by
  rw [put]
  split <;> rfl

theorem current_change (files : FileTree) (c : Change) :
    (files.change c).current = files.current := by
  cases c with
  | remove place => rfl
  | move source target =>
      rw [change]
      split
      · exact current_put _ _ _
      · rfl
  | _ => exact current_put _ _ _

/-- A change that moves nothing puts no link anywhere. -/
theorem link_of_change {c : Change} (hc : ∀ source target, c ≠ .move source target)
    {text : String} (h : (files.change c).get? place = some (.link text)) :
    files.get? place = some (.link text) := by
  have hput (at' : Location) (entry : FileEntry) (hentry : entry ≠ .link text)
      (h : (files.put at' entry).get? place = some (.link text)) :
      files.get? place = some (.link text) := by
    by_cases heq : place = at'
    · by_cases hnil : place = []
      · rw [hnil, get?_nil] at h
        cases h
      · rw [← heq, get?_put_self hnil] at h
        exact absurd (Option.some.inj h) hentry
    · rwa [get?_put_ne heq] at h
  cases c with
  | makeDirectory at' => exact hput at' _ (by simp) h
  | create at' => exact hput at' _ (by simp) h
  | append at' bytes => exact hput at' _ (by simp) h
  | move source target => exact absurd rfl (hc source target)
  | remove at' => exact get?_of_get?_erase h

theorem link_of_changeAll {changes : List Change}
    (hchanges : ∀ c ∈ changes, ∀ source target, c ≠ .move source target) {text : String}
    (h : (files.changeAll changes).get? place = some (.link text)) :
    files.get? place = some (.link text) := by
  induction changes generalizing files with
  | nil => exact h
  | cons c changes ih =>
      have ⟨hc, hothers⟩ := List.forall_mem_cons.mp hchanges
      exact link_of_change hc (ih hothers h)

/-- What is moved stands where it is moved to. -/
theorem get?_move {source target : Location} (htarget : target ≠ [])
    (h : files.get? source = some entry) :
    (files.change (.move source target)).get? target = some entry := by
  rw [change, h]
  exact get?_put_self htarget

theorem get?_move_ne {source target : Location} (hsource : place ≠ source)
    (htarget : place ≠ target) :
    (files.change (.move source target)).get? place = files.get? place := by
  rw [change]
  split
  · rw [get?_put_ne htarget, get?_erase_ne hsource]
  · rfl

/-- What is appended to a new file is all that the file holds. -/
theorem get?_append_create (files : FileTree) (hplace : place ≠ []) (bytes : List UInt8) :
    ((files.change (.create place)).change (.append place bytes)).get? place =
      some (.file bytes) := by
  have hempty : (files.change (.create place)).bytesAt place = [] := by
    rw [bytesAt, change, get?_put_self hplace]
  change ((files.change (.create place)).put place (.file (_ ++ bytes))).get? place = _
  rw [hempty, List.nil_append]
  exact get?_put_self hplace

/-! ## Ways -/

/-- How a way that leads somewhere goes on with its next part: back, into a directory, along a link, or
no further, since it ends with what is neither. A link at the end is followed if `follow` holds. -/
inductive Onward (files : FileTree) (jump : Location → List String → Except OsCause Location)
    (follow : Bool) (here : Location) (part : String) (parts : List String) (place : Location) :
    Prop where
  | back (hpart : part = "..") (h : files.along jump follow here.dropLast parts = .ok place)
  | into (hpart : part ≠ "..") (hget : files.get? (here ++ [part]) = some .directory)
      (h : files.along jump follow (here ++ [part]) parts = .ok place)
  | link (hpart : part ≠ "..") (text : String)
      (hget : files.get? (here ++ [part]) = some (.link text))
      (h : jump (if (Path.ofText text).isAbsolute then [] else here)
        ((Path.ofText text).parts ++ parts) = .ok place)
  | last (hpart : part ≠ "..") (hparts : parts = []) (hplace : here ++ [part] = place)
      (hdirectory : files.get? (here ++ [part]) ≠ some .directory)
      (hlink : follow = true → ∀ text, files.get? (here ++ [part]) ≠ some (.link text))

theorem onward_of_along {jump : Location → List String → Except OsCause Location} {follow : Bool}
    {here : Location} {part : String} {parts : List String}
    (h : files.along jump follow here (part :: parts) = .ok place) :
    files.Onward jump follow here part parts place := by
  rw [along] at h
  by_cases hpart : part = ".."
  · rw [if_pos hpart] at h
    exact .back hpart h
  · rw [if_neg hpart] at h
    dsimp only at h
    have hlast {cause : OsCause}
        (h : (if parts.isEmpty then .ok (here ++ [part]) else .error cause) =
          (.ok place : Except OsCause Location)) : parts = [] ∧ here ++ [part] = place := by
      split at h
      · next hempty =>
        cases h
        exact ⟨List.isEmpty_iff.mp hempty, rfl⟩
      · cases h
    cases hget : files.get? (here ++ [part]) with
    | none =>
        rw [hget] at h
        obtain ⟨hparts, hplace⟩ := hlast h
        exact .last hpart hparts hplace (by simp [hget]) (by simp [hget])
    | some found =>
        rw [hget] at h
        cases found with
        | directory => exact .into hpart hget h
        | file bytes =>
            obtain ⟨hparts, hplace⟩ := hlast h
            exact .last hpart hparts hplace (by simp [hget]) (by simp [hget])
        | link text =>
            dsimp only at h
            split at h
            · next hstop =>
              rw [Bool.and_eq_true, List.isEmpty_iff, Bool.not_eq_true'] at hstop
              cases h
              exact .last hpart hstop.1 rfl (by simp [hget]) (by simp [hstop.2])
            · exact .link hpart text hget h

/-- A part that is there, and is no link that has to be followed, is where a way ends with it. -/
theorem along_singleton {jump : Location → List String → Except OsCause Location} {follow : Bool}
    {name : String} (hname : name ≠ "..")
    (hlink : follow = true → ∀ text, files.get? (place ++ [name]) ≠ some (.link text)) :
    files.along jump follow place [name] = .ok (place ++ [name]) := by
  rw [along, if_neg hname]
  dsimp only
  cases hget : files.get? (place ++ [name]) with
  | none => rfl
  | some found =>
      cases found with
      | file bytes => rfl
      | directory => rfl
      | link text =>
          cases follow with
          | false => rfl
          | true => exact absurd hget (hlink rfl text)

/-- The directories and links of a tree stand in another one as well. -/
def Shares (files after : FileTree) : Prop :=
  ∀ place entry, files.get? place = some entry → (∀ bytes, entry ≠ .file bytes) →
    after.get? place = some entry

/-- To move a file to where there is no directory and no link is a change of files only. -/
theorem shares_move {source target : Location} {bytes : List UInt8}
    (hsource : files.get? source = some (.file bytes))
    (hdirectory : files.get? target ≠ some .directory)
    (hlink : ∀ text, files.get? target ≠ some (.link text)) :
    files.Shares (files.change (.move source target)) := by
  intro other entry hother hfile
  rw [get?_move_ne]
  · exact hother
  · rintro rfl
    rw [hsource] at hother
    cases hother
    exact absurd rfl (hfile bytes)
  · rintro rfl
    cases entry with
    | file bytes => exact absurd rfl (hfile bytes)
    | directory => exact hdirectory hother
    | link text => exact hlink text hother

theorem along_child (hshares : files.Shares after)
    {jump jump' : Location → List String → Except OsCause Location} {follow : Bool} {name : String}
    (hname : name ≠ "..") {here : Location} {parts : List String}
    (hjump : ∀ here parts, jump here parts = .ok place →
      jump' here (parts ++ [name]) = .ok (place ++ [name]))
    (hplace : files.get? place = some .directory)
    (hlink : follow = true → ∀ text, after.get? (place ++ [name]) ≠ some (.link text))
    (h : files.along jump true here parts = .ok place) :
    after.along jump' follow here (parts ++ [name]) = .ok (place ++ [name]) := by
  induction parts generalizing here with
  | nil =>
      cases h
      exact along_singleton hname hlink
  | cons part parts ih =>
      rw [List.cons_append, along]
      cases onward_of_along h with
      | back hpart h =>
          rw [if_pos hpart]
          exact ih h
      | into hpart hget h =>
          rw [if_neg hpart]
          dsimp only
          rw [hshares _ _ hget (by simp)]
          exact ih h
      | link hpart text hget h =>
          have hmore : (parts ++ [name]).isEmpty = false := by simp
          rw [if_neg hpart]
          dsimp only
          rw [hshares _ _ hget (by simp), hmore, Bool.false_and]
          dsimp only
          rw [if_neg Bool.false_ne_true, ← List.append_assoc]
          exact hjump _ _ h
      | last _ _ heq hdirectory _ =>
          rw [heq] at hdirectory
          exact absurd hplace hdirectory

/-- Where a way has led to a directory, it leads to what is in the directory. -/
theorem follow_child (hshares : files.Shares after) {last : Bool} {name : String} (hname : name ≠ "..")
    (hplace : files.get? place = some .directory)
    (hlink : last = true → ∀ text, after.get? (place ++ [name]) ≠ some (.link text))
    {links : Nat} {here : Location} {parts : List String}
    (h : files.follow true links here parts = .ok place) :
    after.follow last links here (parts ++ [name]) = .ok (place ++ [name]) := by
  induction links generalizing here parts with
  | zero =>
      refine along_child hshares hname ?_ hplace hlink h
      intro here parts h
      cases h
  | succ links ih => exact along_child hshares hname (fun _ _ => ih) hplace hlink h

/-- A path that leads to a directory leads, with a name more, to what has this name there. -/
theorem locate_child {p : Path} {name : String} (hname : name ≠ "..")
    (hplace : files.get? place = some .directory) (hthere : files.get? (place ++ [name]) = some entry)
    (hentry : ∀ text, entry ≠ .link text) (h : files.locate p = .ok place) :
    files.locate (p.child name) = .ok (place ++ [name]) := by
  refine follow_child (fun _ _ hget _ => hget) hname hplace (fun _ text htext => ?_) h
  rw [hthere] at htext
  exact hentry text (Option.some.inj htext)

end TypeTrace.FileTree
