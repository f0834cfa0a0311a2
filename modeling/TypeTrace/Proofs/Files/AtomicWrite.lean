import TypeTrace.Files.AtomicWrite
import TypeTrace.Proofs.Files.Directories
import TypeTrace.Proofs.Results

/-! # What writing a file at once leaves behind

A plan keeps the tree and the list of its changes in step: the tree is the one before with the
changes made. Behind the directories there is little that a write can come to: at most it makes a file
under a new name, gives it the whole text and moves it into place.
-/

namespace TypeTrace

/-- A name that is not in a directory is free. -/
theorem FileTree.get?_of_not_mem_names {files : FileTree} {place : Location} {name : String}
    (h : name ∉ files.names place) : files.get? (place ++ [name]) = none := by
  rw [get?_of_ne_nil (by simp), List.lookup_eq_none_iff]
  rintro ⟨location, entry⟩ hitem
  rw [bne_iff_ne]
  rintro rfl
  refine h (List.mem_filterMap.mpr ⟨_, hitem, ?_⟩)
  simp

namespace AtomicWrite

variable {naming : Naming} {files ready : FileTree} {p : Path} {value : Json}

/-! ## Faults -/

/-- What a write is about when it fails: it makes ready, it turns the value into text, or it moves the
file into place. -/
inductive Phase where
  | preparing | rendering | moving
deriving DecidableEq

/-- The phase that a fault comes from. Only a move names two paths. -/
def Fault.phase : Fault → Phase
  | .os error => if error.other.isSome then .moving else .preparing
  | .path fault => if fault = .nullCharacter "replace" "dst" then .moving else .preparing
  | .value _ => .rendering

/-- A path that nothing can be moved to. -/
def NoPlace (files : FileTree) (p : Path) : Prop :=
  p.holdsNull = true ∨ ∃ cause, target? files p = .error cause

/-! ## Temporary files -/

/-- A location for a temporary file: nothing is there, and it has the name of one. -/
structure Vacant (ready : FileTree) (source : Location) : Prop where
  free : ready.get? source = none
  named : ∃ name, IsTemporaryName name ∧ source.getLast? = some name

theorem Vacant.ne_nil {source : Location} (h : Vacant ready source) : source ≠ [] := by
  rintro rfl
  obtain ⟨name, -, hname⟩ := h.named
  cases hname

/-- A temporary file is new, empty and all that is made. -/
theorem createTemporary_eq_ok {made : List Change} {temporary : Path} {source : Location}
    {s : FileTree × List Change}
    (h : createTemporary naming p (ready, made) = .ok (temporary, source) s) :
    Vacant ready source ∧ s = (ready.change (.create source), made ++ [.create source]) := by
  obtain ⟨_, t, hfiles, h⟩ := Stateful.exists_of_bind_eq_ok h
  cases hfiles
  dsimp only at h
  generalize absoluteParent ready p = directory at h
  generalize hchosen : naming.choose _ = chosen at h
  cases chosen with
  | none => cases h
  | some name =>
      dsimp only at h
      generalize hslot : ready.slot? (directory.child name) = slot at h
      cases slot with
      | error cause => cases h
      | ok place =>
          cases h
          obtain ⟨above, hlocate, -, rfl⟩ := FileTree.slot?_eq_ok hslot
          rw [Path.parent_child] at hlocate
          rw [hlocate] at hchosen
          rw [Path.name_child]
          have hfree := naming.isFree _ name hchosen
          have hnamed := naming.isTemporary _ name hchosen
          exact ⟨⟨FileTree.get?_of_not_mem_names hfree, name, hnamed, List.getLast?_concat⟩, rfl⟩

theorem createTemporary_eq_error {made : List Change} {fault : Fault} {s : FileTree × List Change}
    (h : createTemporary naming p (ready, made) = .error fault s) :
    fault.phase = .preparing ∧ s = (ready, made) := by
  rcases Stateful.of_bind_eq_error h with h | ⟨_, t, hfiles, h⟩
  · cases h
  · cases hfiles
    dsimp only at h
    generalize naming.choose _ = chosen at h
    cases chosen with
    | none =>
        cases h
        exact ⟨rfl, rfl⟩
    | some name =>
        dsimp only at h
        generalize ready.slot? _ = slot at h
        cases slot with
        | error cause =>
            cases h
            exact ⟨rfl, rfl⟩
        | ok place => cases h

/-- Before anything is written directories have been made on the way, whether all could be or not. -/
theorem prepare_paves (p : Path) (s : FileTree × List Change) : ∃ made, s.1.Makes p.parent made ∧
    (prepare p s = .ok () (s.1.changeAll made, s.2 ++ made) ∨
      ∃ fault, fault.phase = .preparing ∧
        prepare p s = .error fault (s.1.changeAll made, s.2 ++ made)) := by
  unfold prepare
  split
  · refine ⟨[], .nil _ _, .inr ⟨_, ?_, by rw [List.append_nil]; rfl⟩⟩
    decide
  · have hpaves := Plan.paves_makeDirectories p.parent p.parts.length
    have hleads := hpaves.leads s
    cases hplan : Plan.makeDirectories p.parent p.parts.length s with
    | error error after =>
        rw [hplan] at hleads
        obtain ⟨made, hmakes, rfl⟩ := hleads
        have hphase : (Fault.os error).phase = .preparing := by
          rw [Fault.phase, hpaves.fault _ _ _ hplan]
          rfl
        exact ⟨made, hmakes, .inr ⟨_, hphase, by rw [onFiles, hplan]⟩⟩
    | ok _ after =>
        rw [hplan] at hleads
        obtain ⟨made, hmakes, rfl⟩ := hleads
        exact ⟨made, hmakes, .inl (by rw [onFiles, hplan])⟩

/-! ## The course of a write -/

theorem target?_eq_ok {target : Location} (h : target? files p = .ok target) :
    p.parts ≠ [] ∧ p.name ≠ ".." ∧ files.slot? p = .ok target ∧
      files.get? target ≠ some .directory := by
  unfold target? at h
  split at h
  · cases h
  · next hname =>
    simp only [List.isEmpty_iff, not_or] at hname
    split at h
    · cases h
    · split at h
      · cases h
      · next hslot hplace =>
        cases h
        exact ⟨hname.1, hname.2, hslot, hplace⟩

/-- A move fails where there is no place, and then it changes nothing. -/
theorem moveInto_cases (temporary : Path) (source : Location) (p : Path) (files : FileTree)
    (made : List Change) :
    (NoPlace files p ∧ ∃ fault, fault.phase = .moving ∧
      moveInto temporary source p (files, made) = .error fault (files, made)) ∨
    ∃ target, target? files p = .ok target ∧ moveInto temporary source p (files, made) =
      .ok () (files.change (.move source target), made ++ [.move source target]) := by
  unfold moveInto
  split
  · next hnull => exact .inl ⟨.inl hnull, _, by decide, rfl⟩
  · rw [Stateful.bind_ok (rfl : Plan.files (files, made) = .ok files (files, made))]
    cases htarget : target? files p with
    | error cause => exact .inl ⟨.inr ⟨cause, htarget⟩, _, rfl, rfl⟩
    | ok target => exact .inr ⟨target, rfl, rfl⟩

/-- The tree once a temporary file has its text. -/
def filled (ready : FileTree) (source : Location) (bytes : List UInt8) : FileTree :=
  ready.changeAll [.create source, .append source bytes]

theorem get?_filled {source : Location} (hsource : source ≠ []) (bytes : List UInt8) :
    (filled ready source bytes).get? source = some (.file bytes) :=
  FileTree.get?_append_create ready hsource bytes

theorem get?_filled_ne {source other : Location} (hother : other ≠ source) (bytes : List UInt8) :
    (filled ready source bytes).get? other = ready.get? other :=
  (FileTree.get?_put_ne hother).trans (FileTree.get?_put_ne hother)

/-- The tree once the temporary file with its text has been moved into place. -/
def moved (ready : FileTree) (source target : Location) (bytes : List UInt8) : FileTree :=
  (filled ready source bytes).change (.move source target)

theorem get?_moved {source target : Location} (hsource : Vacant ready source)
    (htarget : target ≠ []) (bytes : List UInt8) :
    (moved ready source target bytes).get? target = some (.file bytes) :=
  FileTree.get?_move htarget (get?_filled hsource.ne_nil bytes)

/-- Behind the move nothing but the target has changed: the temporary file is gone. -/
theorem get?_moved_ne {source target other : Location} (hsource : Vacant ready source)
    (hother : other ≠ target) (bytes : List UInt8) :
    (moved ready source target bytes).get? other = ready.get? other := by
  by_cases heq : other = source
  · rw [moved, FileTree.change, get?_filled hsource.ne_nil]
    dsimp only
    rw [FileTree.get?_put_ne hother, heq, FileTree.get?_erase_self hsource.ne_nil, hsource.free]
  · rw [moved, FileTree.get?_move_ne heq hother, get?_filled_ne heq]

/-- What is changed, once a write has made directories, and how it ends: there is no temporary file, or
it is taken away since the value has no text, or it has the text and cannot or can be moved into
place. -/
inductive Course (ready : FileTree) (p : Path) (value : Json) :
    List Change → Except Fault Unit → Prop where
  | unready {fault : Fault} (hfault : fault.phase = .preparing) :
      Course ready p value [] (.error fault)
  | unwritten {source : Location} {fault : Json.Fault} (hsource : Vacant ready source)
      (hrender : value.render = .error fault) :
      Course ready p value [.create source, .remove source] (.error (.value fault))
  | unmoved {source : Location} {content : String} {fault : Fault} (hfault : fault.phase = .moving)
      (hsource : Vacant ready source) (hrender : value.render = .ok content)
      (hplace : NoPlace (filled ready source (Utf8.bytesOf (content ++ "\n"))) p) :
      Course ready p value [.create source, .append source (Utf8.bytesOf (content ++ "\n"))]
        (.error fault)
  | moved {source target : Location} {content : String} (hsource : Vacant ready source)
      (hrender : value.render = .ok content)
      (htarget : target? (filled ready source (Utf8.bytesOf (content ++ "\n"))) p = .ok target) :
      Course ready p value
        [.create source, .append source (Utf8.bytesOf (content ++ "\n")), .move source target] (.ok ())

/-- Every write makes directories on the way and then runs one of these courses. -/
theorem exists_course (naming : Naming) (files : FileTree) (p : Path) (value : Json)
    (before : List Change) :
    ∃ made written result, files.Makes p.parent made ∧
      Course (files.changeAll made) p value written result ∧
      writeJson naming p value (files, before) =
        Stateful.ending result (files.changeAll (made ++ written), before ++ (made ++ written)) := by
  obtain ⟨made, hmakes, hprepare | ⟨fault, hfault, hprepare⟩⟩ := prepare_paves p (files, before)
  · refine ⟨made, ?_⟩
    rw [writeJson, Stateful.bind_ok hprepare]
    simp only [FileTree.changeAll_append, ← List.append_assoc before made]
    generalize files.changeAll made = ready, before ++ made = before
    cases htemporary : createTemporary naming p (ready, before) with
    | error fault s =>
        obtain ⟨hfault, rfl⟩ := createTemporary_eq_error htemporary
        refine ⟨[], _, hmakes, .unready hfault, ?_⟩
        rw [List.append_nil]
        exact Stateful.bind_error htemporary
    | ok found s =>
        obtain ⟨temporary, source⟩ := found
        obtain ⟨hsource, rfl⟩ := createTemporary_eq_ok htemporary
        rw [Stateful.bind_ok htemporary]
        cases hrender : value.render with
        | error fault =>
            refine ⟨_, _, hmakes, .unwritten hsource hrender, ?_⟩
            change EStateM.Result.error _ (_, before ++ [.create source] ++ [.remove source]) = _
            rw [List.append_assoc]
            rfl
        | ok content =>
            let bytes := Utf8.bytesOf (content ++ "\n")
            rcases moveInto_cases temporary source p (filled ready source bytes)
              (before ++ [.create source] ++ [.append source bytes]) with
              ⟨hplace, fault, hfault, hmove⟩ | ⟨target, htarget, hmove⟩
            · refine ⟨_, _, hmakes, .unmoved hfault hsource hrender hplace, ?_⟩
              refine Eq.trans hmove ?_
              rw [List.append_assoc]
              rfl
            · refine ⟨_, _, hmakes, .moved hsource hrender htarget, ?_⟩
              refine Eq.trans hmove ?_
              rw [List.append_assoc, List.append_assoc]
              rfl
  · refine ⟨made, [], _, hmakes, .unready hfault, ?_⟩
    rw [List.append_nil]
    exact Stateful.bind_error hprepare

theorem run_eq_ok {α : Type} {step : Step α} {a : α}
    (h : (run files step).2.2.toOption = some a) :
    run files step = ((run files step).1, (run files step).2.1, .ok a) :=
  Prod.ext rfl (Prod.ext rfl (eq_ok_of_toOption h))

theorem run_eq_error {α : Type} {step : Step α} {fault : Fault}
    (h : fault? (run files step).2.2 = some fault) :
    run files step = ((run files step).1, (run files step).2.1, .error fault) :=
  Prod.ext rfl (Prod.ext rfl (eq_error_of_fault? h))

/-- The changes end with a move to where a path leads, and the file there holds the bytes. It is found
by the path as well, unless it took the place of the very link through which the path led. -/
def Placed (files : FileTree) (p : Path) (bytes : List UInt8) (changes : List Change)
    (after : FileTree) : Prop :=
  ∃ earlier source target, changes = earlier ++ [.move source target] ∧
    after = files.changeAll changes ∧ (files.changeAll earlier).slot? p = .ok target ∧
    after.get? target = some (.file bytes) ∧
    (after.fileBytes? p = some bytes ∨
      (∃ text, files.get? target = some (.link text)) ∧ after.locate p.parent ≠ .ok target.dropLast)

theorem fileBytes?_of_move {source target : Location} {bytes : List UInt8}
    (hsource : files.get? source = some (.file bytes)) (htarget : target? files p = .ok target)
    (hlink : ∀ text, files.get? target ≠ some (.link text)) :
    (files.change (.move source target)).fileBytes? p = some bytes := by
  obtain ⟨hparts, hname, hslot, hdirectory⟩ := target?_eq_ok htarget
  obtain ⟨place, hlocate, hplace, rfl⟩ := FileTree.slot?_eq_ok hslot
  have hthere := FileTree.get?_move (FileTree.slot?_ne_nil hslot) hsource
  have hshares := FileTree.shares_move hsource hdirectory hlink
  have hway : (files.change (.move source (place ++ [p.name]))).follow true FileTree.linkLimit
      (files.base p) (p.parent.parts ++ [p.name]) = .ok (place ++ [p.name]) :=
    FileTree.follow_child hshares hname hplace (by simp [hthere]) hlocate
  have hlocated : (files.change (.move source (place ++ [p.name]))).locate p =
      .ok (place ++ [p.name]) := by
    rw [Path.parent_append_name hparts] at hway
    rw [FileTree.locate, FileTree.base, FileTree.current_change]
    exact hway
  rw [FileTree.fileBytes?, FileTree.find?, hlocated]
  dsimp only
  rw [hthere]

/-- Where the directory is still found by the path, the file that was moved into it is found, too. -/
theorem fileBytes?_of_parent {source target : Location} {bytes : List UInt8}
    (hsource : Vacant ready source)
    (htarget : target? (filled ready source bytes) p = .ok target)
    (h : (moved ready source target bytes).locate p.parent = .ok target.dropLast) :
    (moved ready source target bytes).fileBytes? p = some bytes := by
  obtain ⟨hparts, hname, hslot, -⟩ := target?_eq_ok htarget
  obtain ⟨above, -, habove, rfl⟩ := FileTree.slot?_eq_ok hslot
  have hthere := get?_moved hsource (FileTree.slot?_ne_nil hslot) bytes
  have hdirectory : ready.get? above = some .directory := by
    rw [get?_filled_ne] at habove
    · exact habove
    · rintro rfl
      rw [get?_filled hsource.ne_nil] at habove
      cases habove
  have hother : above ≠ above ++ [p.name] := by simp
  have hstays := (get?_moved_ne hsource hother bytes).trans hdirectory
  rw [List.dropLast_concat] at h
  have hlocate := FileTree.locate_child hname hstays hthere (by simp) h
  have hchild : p.parent.child p.name = p := congrArg (Path.mk p.anchor) (Path.parent_append_name hparts)
  rw [hchild] at hlocate
  exact FileTree.fileBytes?_eq_some.mpr (FileTree.find?_eq_some.mpr ⟨_, hlocate, hthere⟩)

/-- Behind the move the path leads to the file, unless the file took the place of a link that the path
led through. -/
theorem found_of_moved {source target : Location} {bytes : List UInt8} (hsource : Vacant ready source)
    (htarget : target? (filled ready source bytes) p = .ok target)
    (hlinks : ∀ text, (filled ready source bytes).get? target = some (.link text) →
      files.get? target = some (.link text)) :
    (moved ready source target bytes).fileBytes? p = some bytes ∨
      (∃ text, files.get? target = some (.link text)) ∧
        (moved ready source target bytes).locate p.parent ≠ .ok target.dropLast := by
  by_cases hlink : ∃ text, files.get? target = some (.link text)
  · by_cases hway : (moved ready source target bytes).locate p.parent = .ok target.dropLast
    · exact .inl (fileBytes?_of_parent hsource htarget hway)
    · exact .inr ⟨hlink, hway⟩
  · exact .inl (fileBytes?_of_move (get?_filled hsource.ne_nil bytes) htarget
      fun text htext => hlink ⟨text, hlinks text htext⟩)

theorem writeJson_eq_ok {made : List Change} {s : FileTree × List Change}
    (h : writeJson naming p value (files, made) = .ok () s) :
    ∃ content changes, value.render = .ok content ∧ s.2 = made ++ changes ∧
      Placed files p (Utf8.bytesOf (content ++ "\n")) changes s.1 := by
  obtain ⟨directories, written, result, hmakes, hcourse, hwrite⟩ :=
    exists_course naming files p value made
  rw [hwrite] at h
  cases hcourse with
  | unready => cases h
  | unwritten => cases h
  | unmoved => cases h
  | @moved source target content hsource hrender htarget =>
      cases h
      let bytes := Utf8.bytesOf (content ++ "\n")
      let ready := files.changeAll directories
      let earlier := directories ++ [.create source, .append source bytes]
      have hearlier : files.changeAll earlier = filled ready source bytes :=
        FileTree.changeAll_append _ _ _
      have hquiet : ∀ c ∈ earlier, ∀ source target, c ≠ .move source target := by
        refine List.forall_mem_append.mpr ⟨fun c hc => ?_, by simp⟩
        obtain ⟨place, rfl⟩ := hmakes.eq_makeDirectory c hc
        simp
      have hchanges : directories ++ [.create source, .append source bytes, .move source target] =
          earlier ++ [.move source target] := by simp [earlier]
      have hafter : files.changeAll (earlier ++ [.move source target]) =
          moved ready source target bytes := by
        rw [FileTree.changeAll_concat, hearlier, moved]
      obtain ⟨-, -, hslot, -⟩ := target?_eq_ok htarget
      have hthere := get?_moved hsource (FileTree.slot?_ne_nil hslot) bytes
      have hlinks : ∀ text, (filled ready source bytes).get? target = some (.link text) →
          files.get? target = some (.link text) := fun text htext =>
        FileTree.link_of_changeAll hquiet (hearlier ▸ htext)
      have hfound := found_of_moved hsource htarget hlinks
      rw [← hearlier] at hslot
      rw [← hafter, ← hchanges] at hthere hfound
      exact ⟨content, _, hrender, rfl, earlier, source, target, hchanges, rfl, hslot, hthere, hfound⟩

/-- A fault of the value is why it has no text. -/
theorem render_of_writeJson {fault : Json.Fault} {s t : FileTree × List Change}
    (h : writeJson naming p value s = .error (.value fault) t) : value.render = .error fault := by
  obtain ⟨made, written, result, -, hcourse, hwrite⟩ := exists_course naming s.1 p value s.2
  rw [hwrite] at h
  cases hcourse with
  | unready hfault =>
      cases h
      cases hfault
  | unwritten _ hrender =>
      cases h
      exact hrender
  | unmoved hfault =>
      cases h
      cases hfault
  | moved => cases h

end AtomicWrite

end TypeTrace
