import TypeTrace.Proofs.Files.AtomicWrite
import TypeTrace.Proofs.Results

/-! # What a failed write leaves behind

A write that fails has made directories at most, where nothing stood before. There is one exception:
if the file cannot be moved into place, it stays under its temporary name, whole and beside all that
was there.
-/

namespace TypeTrace.AtomicWrite

variable {naming : Naming} {files after : FileTree} {p : Path} {value : Json}

/-- A fault of the move. -/
def Fault.IsOfMove (fault : Fault) : Prop := fault.phase = .moving

/-- How a write fails: before the move, with nothing but directories made, or in the move, since a file
cannot be put where the path leads, with the temporary file left that was made for it. -/
inductive Fails (files : FileTree) (p : Path) (value : Json) : Fault → FileTree → Prop where
  | early {fault : Fault} {after : FileTree} (hfault : ¬ fault.IsOfMove) (h : files.Grown after) :
      Fails files p value fault after
  | late {fault : Fault} {after : FileTree} {place : Location} {content : String}
      (hfault : fault.IsOfMove) (hplace : NoPlace after p)
      (hrender : value.render = .ok content) (hnew : files.get? place = none)
      (hthere : after.get? place = some (.file (Utf8.bytesOf (content ++ "\n"))))
      (h : files.Grown (after.erase place)) : Fails files p value fault after

theorem fails_writeJson {made : List Change} {fault : Fault} {s : FileTree × List Change}
    (h : writeJson naming p value (files, made) = .error fault s) :
    Fails files p value fault s.1 := by
  obtain ⟨directories, written, result, hmakes, hcourse, hwrite⟩ :=
    exists_course naming files p value made
  rw [hwrite] at h
  have hgrown := hmakes.grownAlong.grown
  cases hcourse with
  | unready hfault =>
      cases h
      rw [List.append_nil]
      exact .early (by simp [Fault.IsOfMove, hfault]) hgrown
  | unwritten hsource hrender =>
      cases h
      rw [FileTree.changeAll_append]
      exact .early nofun (hgrown.of_erase hsource.free fun other hne => FileTree.get?_put_ne hne)
  | @unmoved source content fault hfault hsource hrender hplace =>
      cases h
      dsimp only
      rw [FileTree.changeAll_append]
      let bytes := Utf8.bytesOf (content ++ "\n")
      have herased : files.Grown ((filled (files.changeAll directories) source bytes).erase source) :=
        hgrown.of_erase hsource.free fun other hne => get?_filled_ne hne bytes
      refine .late hfault hplace hrender ?_ (get?_filled hsource.ne_nil bytes) herased
      exact (hgrown source).elim (fun hsame => hsame ▸ hsource.free) And.left
  | moved => cases h

/-- A write that fails has done nothing but make directories, unless the move is what failed. Then the
whole text stands in a file under a temporary name, and there is no place for it where the path leads;
but for that file, again, nothing has been done but make directories. -/
theorem failed_write_keeps_files {changes : List Change} {fault : Fault}
    (h : run files (writeJson naming p value) = (after, changes, .error fault)) :
    (files.Grown after ↔ ¬ fault.IsOfMove) ∧
      (fault.IsOfMove → ∃ place content, value.render = .ok content ∧ files.get? place = none ∧
        after.get? place = some (.file (Utf8.bytesOf (content ++ "\n"))) ∧
        files.Grown (after.erase place) ∧ NoPlace after p) := by
  have hfails : Fails files p value fault after := by
    unfold run at h
    split at h
    · cases h
    · next hwrite =>
      cases h
      exact fails_writeJson hwrite
  cases hfails with
  | early hfault hgrown => exact ⟨iff_of_true hgrown hfault, fun hmove => absurd hmove hfault⟩
  | @late place content hfault hplace hrender hnew hthere hgrown =>
      refine ⟨iff_of_false (fun hall => ?_) (not_not_intro hfault), fun _ =>
        ⟨place, content, hrender, hnew, hthere, hgrown, hplace⟩⟩
      rcases hall place with hsame | ⟨-, hmade⟩
      · rw [hthere, hnew] at hsame
        cases hsame
      · rw [hthere] at hmade
        cases hmade

def archive : FileTree where
  entries :=
    [(["archive"], .directory), (["archive", "kept.json"], .directory)]
  current := ["archive"]

/-- Of a value without a text nothing is left but the two directories that were made for it. -/
theorem failed_write_keeps_files_in_archive :
    ∃ after changes fault,
      run archive (writeJson .counting (Path.ofText "a/b/new.json")
        (.list [.int 1, .foreign "object"])) = (after, changes, .error fault) ∧
      changes.length = 4 ∧ archive.Grown after := by
  let step := writeJson .counting (Path.ofText "a/b/new.json") (.list [.int 1, .foreign "object"])
  have hfault : fault? (run archive step).2.2 = some (.value (.foreign "object")) := by
    decide +kernel
  have hchanges : (run archive step).2.1.length = 4 := by decide +kernel
  have hrun := run_eq_error hfault
  exact ⟨_, _, _, hrun, hchanges, (failed_write_keeps_files hrun).1.mpr nofun⟩

/-- Where a directory has the name of the file, the write fails and leaves a file that was not there. -/
theorem failed_move_leaves_temporary :
    ∃ after changes error bytes,
      run archive (writeJson .counting (Path.ofText "kept.json") (.object [("a", .int 1)])) =
        (after, changes, .error (.os error)) ∧ error.cause = .isDirectory ∧
      archive.get? ["archive", ".tmp-00000000.json"] = none ∧
      after.get? ["archive", ".tmp-00000000.json"] = some (.file bytes) := by
  let step := writeJson .counting (Path.ofText "kept.json") (.object [("a", .int 1)])
  let error : OsError := ⟨.isDirectory, some "/archive/.tmp-00000000.json", some "kept.json"⟩
  have hfault : fault? (run archive step).2.2 = some (.os error) := by decide +kernel
  have hnone : archive.get? ["archive", ".tmp-00000000.json"] = none := by decide +kernel
  have hthere : (run archive step).1.get? ["archive", ".tmp-00000000.json"] =
      some (.file (Utf8.bytesOf "\x7b\n  \"a\": 1\n\x7d\n")) := by decide +kernel
  have hrun := run_eq_error hfault
  exact ⟨_, _, error, _, hrun, rfl, hnone, hthere⟩

end TypeTrace.AtomicWrite
