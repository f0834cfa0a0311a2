import TypeTrace.Proofs.Files.AtomicWrite

/-! # What is seen while a file is written

A write can be looked at after each of its changes, and while the text gets into the temporary file.
At all these moments a path names the same location, if it names any. What is found there is what was
there before, or the whole text. Only where nothing was before there are exceptions: the path may lead
back to a directory that has been made on its way, and the temporary file may happen to have its name.
-/

namespace TypeTrace

namespace FileTree

variable {files now : FileTree} {p : Path} {place : Location}

/-! ## What a path names -/

theorem follow_self_singleton (files : FileTree) (links : Nat) (here : Location) (name : String) :
    files.follow false links here [name] =
      .ok (if name = ".." then here.dropLast else here ++ [name]) := by
  obtain ⟨jump, hway, -⟩ := exists_jump files false links
  rw [hway]
  split
  · next hname =>
    rw [hname, along, if_pos rfl, along]
  · next hname => exact along_singleton hname (by simp)

/-- A path that names a location leads to the directory that it resolves to without its last part, also
in another tree that has no links of its own. -/
theorem exists_resolves_of_locateSelf (hsupports : files.Supports now)
    (hcurrent : now.current = files.current) (hparts : p.parts ≠ [])
    (h : now.locateSelf p = .ok place) :
    ∃ above n, files.Resolves (files.base p) p.parent.parts above n ∧
      place = if p.name = ".." then above.dropLast else above ++ [p.name] := by
  rw [locateSelf, ← Path.parent_append_name hparts, base, hcurrent] at h
  obtain ⟨above, n, left, hresolves, -, hlast⟩ :=
    exists_resolves_of_way hsupports (.inl (List.cons_ne_nil _ _)) h
  rw [follow_self_singleton] at hlast
  exact ⟨above, n, hresolves, (Except.ok.inj hlast).symm⟩

/-- Two trees without links of their own do not disagree on what a path names. -/
theorem locateSelf_unique {now' : FileTree} {place' : Location} (hsupports : files.Supports now)
    (hsupports' : files.Supports now') (hcurrent : now.current = files.current)
    (hcurrent' : now'.current = files.current) (h : now.locateSelf p = .ok place)
    (h' : now'.locateSelf p = .ok place') : place = place' := by
  by_cases hparts : p.parts = []
  · rw [locateSelf, hparts, follow_nil, base, hcurrent] at h
    rw [locateSelf, hparts, follow_nil, base, hcurrent'] at h'
    exact Except.ok.inj (h.symm.trans h')
  · obtain ⟨above, n, hresolves, rfl⟩ :=
      exists_resolves_of_locateSelf hsupports hcurrent hparts h
    obtain ⟨above', n', hresolves', rfl⟩ :=
      exists_resolves_of_locateSelf hsupports' hcurrent' hparts h'
    rw [(hresolves.unique hresolves').1]

/-- A path that names what is missing on its own way has two dots in it: without them it leads on
below what is missing. -/
theorem Sound.dots_of_onTheWay (hsound : files.Sound) (hsupports : files.Supports now)
    (hcurrent : now.current = files.current) (hnone : files.get? place = none)
    (hway : files.OnTheWay p.parent place) (h : now.locateSelf p = .ok place) :
    ".." ∈ p.parts := by
  by_contra hdots
  obtain ⟨above, name, rest, here, n, hparent, hname, hresolves, rfl⟩ := hway
  have hparts : p.parts ≠ [] := by
    intro hnil
    rw [Path.parent, hnil] at hparent
    simp at hparent
  have hall := Path.parent_append_name hparts
  rw [hparent] at hall
  obtain ⟨there, m, hthere, hplace⟩ := exists_resolves_of_locateSelf hsupports hcurrent hparts h
  rw [hparent] at hthere
  obtain ⟨here', _, k, hhere', hrest⟩ := exists_of_resolves_append hthere
  obtain ⟨rfl, -⟩ := hresolves.unique hhere'
  cases hrest with
  | back => exact hname rfl
  | link _ hget =>
      rw [hnone] at hget
      cases hget
  | into _ _ hrest =>
      -- Below what is missing nothing is, so that the rest of the path resolves to what it spells.
      have hbelow (more : List String) (text : String) (hmore : more ≠ []) :
          files.get? (here ++ [name] ++ more) ≠ some (.link text) := by
        intro hlink
        rw [hsound.directory_above hmore hlink] at hnone
        cases hnone
      have hspelled := hrest.eq_append (fun hmem => hdots (by rw [← hall]; simp [hmem])) hbelow
      have hlast : p.name ≠ ".." := fun heq => hdots (by rw [← hall, heq]; simp)
      rw [if_neg hlast, hspelled] at hplace
      simpa using congrArg List.length hplace

end FileTree

namespace AtomicWrite

variable {naming : Naming} {files ready now after : FileTree} {p : Path} {value : Json}
  {changes : List Change} {place : Location} {result : Except Fault Unit}

/-! ## Moments -/

/-- What can be seen of the files while they are changed: how they are, how they are while a new file is
given its text, with whatever has got there so far, and what can be seen after a change. -/
inductive Seen : FileTree → List Change → FileTree → Prop where
  | now (files : FileTree) (changes : List Change) : Seen files changes files
  | writing (files : FileTree) (place : Location) (written : List UInt8) (changes : List Change) :
      Seen files (.create place :: changes)
        ((files.change (.create place)).change (.append place written))
  | later {files now : FileTree} {c : Change} {changes : List Change}
      (h : Seen (files.change c) changes now) : Seen files (c :: changes) now

theorem Seen.of_append {first second : List Change} (h : Seen files (first ++ second) now) :
    Seen files first now ∨ Seen (files.changeAll first) second now := by
  induction first generalizing files with
  | nil => exact .inr h
  | cons c first ih =>
      cases h with
      | now => exact .inl (.now _ _)
      | writing => exact .inl (.writing _ _ _ _)
      | later h => exact (ih h).imp_left .later

theorem Seen.append {first second : List Change} (h : Seen (files.changeAll first) second now) :
    Seen files (first ++ second) now := by
  induction first generalizing files with
  | nil => exact h
  | cons c first ih => exact .later (ih h)

theorem Seen.current (h : Seen files changes now) : now.current = files.current := by
  induction h with
  | now => rfl
  | writing files place written changes =>
      rw [FileTree.current_change, FileTree.current_change]
  | @later files now c changes h ih => rw [ih, FileTree.current_change]

/-- While directories are made on the way of a path, nothing else is seen to change. -/
theorem Seen.grownAlong (hmakes : files.Makes p changes) (h : Seen files changes now) :
    files.GrownAlong p now := by
  induction hmakes with
  | nil files p =>
      cases h
      exact .refl _ p
  | @cons files p place changes hplace hway _ ih =>
      cases h with
      | now => exact .refl _ p
      | later h => exact (FileTree.grownAlong_makeDirectory hplace hway).trans (ih h)

/-! ## Stages -/

/-- How far a write has come, as seen by somebody who looks at the files. -/
inductive Stage (ready : FileTree) (p : Path) (value : Json) (changes : List Change)
    (now : FileTree) : Prop where
  | untouched (h : ∀ place, now.get? place = ready.get? place)
  | begun (source : Location) (bytes : List UInt8) (hcreated : .create source ∈ changes)
      (hsource : Vacant ready source) (hthere : now.get? source = some (.file bytes))
      (helse : ∀ other, other ≠ source → now.get? other = ready.get? other)
  | finished (source target : Location) (content : String) (hsource : Vacant ready source)
      (hchanges : changes = [.create source, .append source (Utf8.bytesOf (content ++ "\n")),
        .move source target])
      (hrender : value.render = .ok content)
      (htarget : target? (filled ready source (Utf8.bytesOf (content ++ "\n"))) p = .ok target)
      (hnow : now = moved ready source target (Utf8.bytesOf (content ++ "\n")))

theorem Stage.of_created {source : Location} (hsource : Vacant ready source)
    (hcreated : .create source ∈ changes) :
    Stage ready p value changes (ready.change (.create source)) :=
  .begun source [] hcreated hsource (FileTree.get?_put_self hsource.ne_nil)
    fun _ hother => FileTree.get?_put_ne hother

theorem Stage.of_filled {source : Location} (hsource : Vacant ready source)
    (hcreated : .create source ∈ changes) (bytes : List UInt8) :
    Stage ready p value changes (filled ready source bytes) :=
  .begun source bytes hcreated hsource (get?_filled hsource.ne_nil bytes)
    fun _ hother => get?_filled_ne hother bytes

theorem Stage.of_removed {source : Location} (hsource : Vacant ready source) :
    Stage ready p value changes ((ready.change (.create source)).change (.remove source)) := by
  refine .untouched fun other => ?_
  by_cases hother : other = source
  · rw [hother, hsource.free]
    exact FileTree.get?_erase_self hsource.ne_nil
  · exact (FileTree.get?_erase_ne hother).trans (FileTree.get?_put_ne hother)

/-- A temporary file is made first. What is seen until the change behind that is done is a stage. -/
theorem Stage.of_seen {source : Location} {c : Change} {rest : List Change}
    (hsource : Vacant ready source) (hcreated : .create source ∈ changes)
    (hc : ∀ place, c ≠ .create place) (h : Seen ready (.create source :: c :: rest) now)
    (hrest : Seen ((ready.change (.create source)).change c) rest now →
      Stage ready p value changes now) : Stage ready p value changes now := by
  cases h with
  | now => exact .untouched fun _ => rfl
  | writing _ _ bytes => exact .of_filled hsource hcreated bytes
  | later h =>
      cases h with
      | now => exact .of_created hsource hcreated
      | writing _ place => exact absurd rfl (hc place)
      | later h => exact hrest h

/-- Whatever is seen while a write runs its course is one of its stages. -/
theorem stage_of_seen (hcourse : Course ready p value changes result)
    (hseen : Seen ready changes now) : Stage ready p value changes now := by
  cases hcourse with
  | unready =>
      cases hseen
      exact .untouched fun _ => rfl
  | unwritten hsource _ =>
      refine .of_seen hsource List.mem_cons_self (by simp) hseen fun hrest => ?_
      cases hrest
      exact .of_removed hsource
  | unmoved _ hsource =>
      refine .of_seen hsource List.mem_cons_self (by simp) hseen fun hrest => ?_
      cases hrest
      exact .of_filled hsource List.mem_cons_self _
  | moved hsource hrender htarget =>
      refine .of_seen hsource List.mem_cons_self (by simp) hseen fun hrest => ?_
      cases hrest with
      | now => exact .of_filled hsource List.mem_cons_self _
      | later hrest =>
          cases hrest
          exact .finished _ _ _ hsource rfl hrender htarget rfl

/-! ## What is found at a location -/

/-- A path names a location at some moment while files are changed. -/
def Names (files : FileTree) (changes : List Change) (p : Path) (place : Location) : Prop :=
  ∃ moment, Seen files changes moment ∧ moment.locateSelf p = .ok place

/-- What is found at a location while a value is written to a path: what was there before, the whole
text where the path leads, a directory made on the way to it, or the temporary file. -/
inductive Shown (files : FileTree) (p : Path) (value : Json) (changes : List Change)
    (now : FileTree) (place : Location) : Prop where
  | before (h : now.get? place = files.get? place)
  | whole (content : String) (hrender : value.render = .ok content)
      (hnamed : Names files changes p place)
      (h : now.get? place = some (.file (Utf8.bytesOf (content ++ "\n"))))
  | directory (hbefore : files.get? place = none) (hway : files.OnTheWay p.parent place)
      (h : now.get? place = some .directory)
  | temporary (bytes : List UInt8) (hbefore : files.get? place = none)
      (hcreated : .create place ∈ changes)
      (hname : ∃ name, IsTemporaryName name ∧ place.getLast? = some name)
      (h : now.get? place = some (.file bytes))

theorem Shown.of_grownAlong (hgrown : files.GrownAlong p.parent ready)
    (h : now.get? place = ready.get? place) : Shown files p value changes now place := by
  rcases hgrown.get? place with hsame | ⟨hnone, hmade, hway⟩
  · exact .before (h.trans hsame)
  · exact .directory hnone hway (h.trans hmade)

theorem Names.append {first second : List Change} (h : Names (files.changeAll first) second p place) :
    Names files (first ++ second) p place :=
  h.imp fun _ ⟨hseen, hlocate⟩ => ⟨hseen.append, hlocate⟩

/-- Where a path will put the temporary file is what it names meanwhile. -/
theorem names_of_target? {source target : Location} {bytes : List UInt8}
    (h : target? (filled ready source bytes) p = .ok target) (rest : List Change) :
    Names ready (.create source :: rest) p target := by
  obtain ⟨hparts, hname, hslot, -⟩ := target?_eq_ok h
  exact ⟨_, .writing ready source bytes rest, FileTree.locateSelf_of_slot? hparts hname hslot⟩

theorem shown_of_seen {made written : List Change} (hmakes : files.Makes p.parent made)
    (hcourse : Course (files.changeAll made) p value written result)
    (h : Seen files (made ++ written) now) (place : Location) :
    Shown files p value (made ++ written) now place := by
  have hgrown := hmakes.grownAlong
  rcases h.of_append with hmaking | hwriting
  · exact .of_grownAlong (hmaking.grownAlong hmakes) rfl
  · cases stage_of_seen hcourse hwriting with
    | untouched h => exact .of_grownAlong hgrown (h place)
    | begun source bytes hcreated hsource hthere helse =>
        by_cases heq : place = source
        · subst heq
          have hbefore := (hgrown.get? place).elim (fun hsame => hsame ▸ hsource.free) And.left
          exact .temporary bytes hbefore (List.mem_append_right made hcreated) hsource.named hthere
        · exact .of_grownAlong hgrown (helse place heq)
    | finished source target content hsource hchanges hrender htarget hnow =>
        subst hchanges hnow
        obtain ⟨-, -, hslot, -⟩ := target?_eq_ok htarget
        by_cases heq : place = target
        · subst heq
          exact .whole content hrender (names_of_target? htarget _).append
            (get?_moved hsource (FileTree.slot?_ne_nil hslot) _)
        · exact .of_grownAlong hgrown (get?_moved_ne hsource heq _)

/-- Nobody sees a link that was not there, or a directory where a link was. -/
theorem supports_of_shown (h : ∀ place, Shown files p value changes now place) :
    files.Supports now where
  link place text hlink := by
    cases h place with
    | before h => rwa [← h]
    | whole _ _ _ h => simp [h] at hlink
    | directory _ _ h => simp [h] at hlink
    | temporary _ _ _ _ h => simp [h] at hlink
  directory place hdirectory text := by
    cases h place with
    | before h => simp [← h, hdirectory]
    | whole _ _ _ h => simp [h] at hdirectory
    | directory hbefore _ _ => simp [hbefore]
    | temporary _ hbefore _ _ _ => simp [hbefore]

/-! ## What is left -/

/-- A write has come to its end at a location: the whole text is there, the temporary file is gone, and
but for directories on the way all else is as before. The path leads to the text, unless it led to its
directory through the very link that the text has replaced. -/
structure Replaced (files after : FileTree) (p : Path) (bytes : List UInt8) (changes : List Change)
    (place : Location) : Prop where
  named : Names files changes p place
  whole : after.get? place = some (.file bytes)
  found : after.fileBytes? p = some bytes ∨
    (∃ text, files.get? place = some (.link text)) ∧ after.locate p.parent ≠ .ok place.dropLast
  gone : ∀ temporary, .create temporary ∈ changes →
    temporary = place ∨ after.get? temporary = none
  others : ∀ other, other ≠ place → after.get? other = files.get? other ∨
    files.get? other = none ∧ after.get? other = some .directory ∧ files.OnTheWay p.parent other

theorem replaced_of_course {made written : List Change} (hmakes : files.Makes p.parent made)
    (hcourse : Course (files.changeAll made) p value written (.ok ())) :
    ∃ content place, value.render = .ok content ∧
      Replaced files (files.changeAll (made ++ written)) p (Utf8.bytesOf (content ++ "\n"))
        (made ++ written) place := by
  have hgrown := hmakes.grownAlong
  have hshown (now : FileTree) (hnow : Seen files (made ++ written) now) :=
    shown_of_seen hmakes hcourse hnow
  cases hcourse with
  | @moved source target content hsource hrender htarget =>
      let bytes := Utf8.bytesOf (content ++ "\n")
      have hafter : files.changeAll (made ++ [.create source, .append source bytes,
          .move source target]) = moved (files.changeAll made) source target bytes :=
        FileTree.changeAll_append _ _ _
      have hfilled : files.Supports (filled (files.changeAll made) source bytes) :=
        supports_of_shown (hshown _ (Seen.append (.writing _ source bytes _)))
      obtain ⟨-, -, hslot, -⟩ := target?_eq_ok htarget
      refine ⟨content, target, hrender, ?_⟩
      rw [hafter]
      constructor
      · exact (names_of_target? htarget _).append
      · exact get?_moved hsource (FileTree.slot?_ne_nil hslot) bytes
      · exact found_of_moved hsource htarget (hfilled.link target)
      · intro temporary hcreated
        have htemporary : temporary = source := by
          rcases List.mem_append.mp hcreated with hmade | hwritten
          · obtain ⟨_, hmade⟩ := hmakes.eq_makeDirectory _ hmade
            cases hmade
          · simpa using hwritten
        by_cases heq : source = target
        · exact .inl (htemporary.trans heq)
        · rw [htemporary, get?_moved_ne hsource heq]
          exact .inr hsource.free
      · intro other hother
        rw [get?_moved_ne hsource hother]
        exact hgrown.get? other

theorem exists_course_of_run (h : run files (writeJson naming p value) = (after, changes, result)) :
    ∃ made written, changes = made ++ written ∧ after = files.changeAll changes ∧
      files.Makes p.parent made ∧ Course (files.changeAll made) p value written result := by
  obtain ⟨made, written, result', hmakes, hcourse, hwrite⟩ := exists_course naming files p value []
  unfold run at h
  rw [hwrite] at h
  cases result' <;>
    · cases h
      exact ⟨made, written, rfl, rfl, hmakes, hcourse⟩

/-- A path names one location at most while a value is written to it. Whatever is seen at any moment, all
that is found anywhere is what was there before, the whole text where the path leads, a directory on the
way to it where nothing was before, or the temporary file there. The path leads to such a directory
itself only if it has two dots in it. When the value has been written, it is found whole where the path
leads, and nothing but directories on the way has been left beside it. -/
theorem target_shows_old_or_whole (hsound : files.Sound)
    (h : run files (writeJson naming p value) = (after, changes, result)) :
    (∀ place place', Names files changes p place → Names files changes p place' →
      place = place') ∧
    (∀ now, Seen files changes now → ∀ place, Shown files p value changes now place ∧
      (Names files changes p place → now.get? place = some .directory →
        files.get? place = some .directory ∨ ".." ∈ p.parts)) ∧
    (result = .ok () → ∃ content place, value.render = .ok content ∧
      Replaced files after p (Utf8.bytesOf (content ++ "\n")) changes place) := by
  obtain ⟨made, written, rfl, rfl, hmakes, hcourse⟩ := exists_course_of_run h
  have hshown (now : FileTree) (hnow : Seen files (made ++ written) now) :=
    shown_of_seen hmakes hcourse hnow
  refine ⟨?_, fun now hnow place => ⟨hshown now hnow place, ?_⟩, ?_⟩
  · rintro place place' ⟨moment, hmoment, hlocate⟩ ⟨moment', hmoment', hlocate'⟩
    exact FileTree.locateSelf_unique (supports_of_shown (hshown moment hmoment))
      (supports_of_shown (hshown moment' hmoment')) hmoment.current hmoment'.current hlocate hlocate'
  · rintro ⟨moment, hmoment, hlocate⟩ hdirectory
    cases hshown now hnow place with
    | before h => exact .inl (h ▸ hdirectory)
    | whole _ _ _ h => simp [h] at hdirectory
    | directory hbefore hway _ =>
        exact .inr (hsound.dots_of_onTheWay (supports_of_shown (hshown moment hmoment))
          hmoment.current hbefore hway hlocate)
    | temporary _ _ _ _ h => simp [h] at hdirectory
  · rintro rfl
    exact replaced_of_course hmakes hcourse

def spool : FileTree where
  entries :=
    [(["spool"], .directory), (["spool", "here"], .link "."),
     (["spool", "latest.json"], .link "old.json"),
     (["spool", "old.json"], .file [123, 125])]
  current := ["spool"]

def note : Json := .object [("a", .int 1)]

def noteText : String := "\x7b\n  \"a\": 1\n\x7d"

/-- A link gives way to the text at once, and the file that it led to stays. -/
theorem target_shows_old_or_whole_in_spool :
    spool.Sound ∧ ∃ after changes,
      run spool (writeJson .counting (Path.ofText "latest.json") note) = (after, changes, .ok ()) ∧
      (∀ now, Seen spool changes now →
        now.get? ["spool", "latest.json"] = some (.link "old.json") ∨
        now.get? ["spool", "latest.json"] = some (.file (Utf8.bytesOf (noteText ++ "\n")))) ∧
      after.get? ["spool", "old.json"] = some (.file [123, 125]) := by
  have hsound : spool.Sound :=
    ⟨by decide +kernel, by decide +kernel, by decide +kernel, by decide +kernel⟩
  have hwritten : (run spool (writeJson .counting (Path.ofText "latest.json") note)).2.2.toOption =
      some () := by decide +kernel
  have hrun := run_eq_ok hwritten
  have hnote : note.render = .ok noteText := eq_ok_of_toOption (by decide +kernel)
  have hlink : spool.get? ["spool", "latest.json"] = some (.link "old.json") := by decide +kernel
  have hold : spool.get? ["spool", "old.json"] = some (.file [123, 125]) := by decide +kernel
  have hlocate : spool.locateSelf (Path.ofText "latest.json") = .ok ["spool", "latest.json"] :=
    eq_ok_of_toOption (by decide +kernel)
  obtain ⟨hunique, hshown, hreplaced⟩ := target_shows_old_or_whole hsound hrun
  refine ⟨hsound, _, _, hrun, fun now hnow => ?_, ?_⟩
  · cases (hshown now hnow ["spool", "latest.json"]).1 with
    | before h => exact .inl (h.trans hlink)
    | whole content hrender _ h =>
        rw [hnote] at hrender
        cases hrender
        exact .inr h
    | directory hbefore => simp [hlink] at hbefore
    | temporary _ hbefore => simp [hlink] at hbefore
  · obtain ⟨content, place, -, hreplaced⟩ := hreplaced rfl
    have hplace := hunique _ _ hreplaced.named ⟨spool, .now _ _, hlocate⟩
    rcases hreplaced.others ["spool", "old.json"] (by rw [hplace]; decide) with h | ⟨hnone, -⟩
    · exact h.trans hold
    · simp [hold] at hnone

/-- A path can lead back to a directory that is made on its way, the temporary file can have the name that
the path gives, and a path can lead through the link that it replaces. -/
theorem target_shows_other_in_spool :
    (∃ after changes fault now,
      run spool (writeJson .counting (Path.ofText "a/../a") note) = (after, changes, .error fault) ∧
      Seen spool changes now ∧
      now.locateSelf (Path.ofText "a/../a") = .ok ["spool", "a"] ∧
      spool.get? ["spool", "a"] = none ∧ now.get? ["spool", "a"] = some .directory) ∧
    (∃ after changes now,
      run spool (writeJson .counting (Path.ofText ".tmp-00000000.json") note) = (after, changes, .ok ()) ∧
      Seen spool changes now ∧
      now.locateSelf (Path.ofText ".tmp-00000000.json") = .ok ["spool", ".tmp-00000000.json"] ∧
      spool.get? ["spool", ".tmp-00000000.json"] = none ∧
      now.get? ["spool", ".tmp-00000000.json"] = some (.file [])) ∧
    ∃ after changes,
      run spool (writeJson .counting (Path.ofText "here/here") note) = (after, changes, .ok ()) ∧
      after.fileBytes? (Path.ofText "here/here") = none := by
  refine ⟨?_, ?_, ?_⟩
  · let step := writeJson .counting (Path.ofText "a/../a") note
    let error : OsError := ⟨.isDirectory, some "/spool/.tmp-00000000.json", some "a/../a"⟩
    let now := spool.change (.makeDirectory ["spool", "a"])
    have hfault : fault? (run spool step).2.2 = some (.os error) := by decide +kernel
    have hrun := run_eq_error hfault
    have hchanges : (run spool step).2.1 = .makeDirectory ["spool", "a"] :: (run spool step).2.1.tail := by
      decide +kernel
    have hnow : Seen spool (run spool step).2.1 now := by
      rw [hchanges]
      exact .later (.now _ _)
    exact ⟨_, _, _, now, hrun, hnow, eq_ok_of_toOption (by decide +kernel), by decide +kernel,
      by decide +kernel⟩
  · let step := writeJson .counting (Path.ofText ".tmp-00000000.json") note
    let now := spool.change (.create ["spool", ".tmp-00000000.json"])
    have hwritten : (run spool step).2.2.toOption = some () := by decide +kernel
    have hrun := run_eq_ok hwritten
    have hchanges : (run spool step).2.1 =
        .create ["spool", ".tmp-00000000.json"] :: (run spool step).2.1.tail := by
      decide +kernel
    have hnow : Seen spool (run spool step).2.1 now := by
      rw [hchanges]
      exact .later (.now _ _)
    exact ⟨_, _, now, hrun, hnow, eq_ok_of_toOption (by decide +kernel), by decide +kernel,
      by decide +kernel⟩
  · let step := writeJson .counting (Path.ofText "here/here") note
    have hwritten : (run spool step).2.2.toOption = some () := by decide +kernel
    have hrun := run_eq_ok hwritten
    have hlost : (run spool step).1.fileBytes? (Path.ofText "here/here") = none := by
      decide +kernel
    exact ⟨_, _, hrun, hlost⟩

end AtomicWrite

end TypeTrace
