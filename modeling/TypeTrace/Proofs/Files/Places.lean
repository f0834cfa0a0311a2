import Mathlib.Data.List.Induction
import TypeTrace.Proofs.Files.Path
import TypeTrace.Proofs.Files.Tree
import TypeTrace.Proofs.Results

/-! # Places in a file tree

In a tree as a disk holds it every entry has a place of its own in a directory. What a path leads to
is then found at the place that the path resolves to, and that place resolves to itself. The order of
the entries says nothing: two trees with the same entries lead to the same places.
-/

namespace TypeTrace.FileTree

variable {files files' : FileTree} {place here : Location} {parts : List String} {entry : FileEntry}

/-! ## Ways and resolved paths -/

/-- Parts resolve from a location to a place by way of a number of links, whether what they lead
through is there or not. -/
inductive Resolves (files : FileTree) : Location → List String → Location → Nat → Prop where
  | nil (here : Location) : Resolves files here [] here 0
  | back {here place : Location} {parts : List String} {n : Nat}
      (h : Resolves files here.dropLast parts place n) : Resolves files here (".." :: parts) place n
  | into {here place : Location} {part : String} {parts : List String} {n : Nat} (hpart : part ≠ "..")
      (hlink : ∀ text, files.get? (here ++ [part]) ≠ some (.link text))
      (h : Resolves files (here ++ [part]) parts place n) : Resolves files here (part :: parts) place n
  | link {here middle place : Location} {part text : String} {parts : List String} {m n : Nat}
      (hpart : part ≠ "..") (hget : files.get? (here ++ [part]) = some (.link text))
      (hin : Resolves files (if (Path.ofText text).isAbsolute then [] else here)
        (Path.ofText text).parts middle m)
      (h : Resolves files middle parts place n) :
      Resolves files here (part :: parts) place (m + n + 1)

theorem Resolves.unique {place' : Location} {n n' : Nat} (h : files.Resolves here parts place n)
    (h' : files.Resolves here parts place' n') : place = place' ∧ n = n' := by
  induction h generalizing place' n' with
  | nil here =>
      cases h'
      exact ⟨rfl, rfl⟩
  | back h ih =>
      cases h' with
      | back h' => exact ih h'
      | into hpart => exact absurd rfl hpart
      | link hpart => exact absurd rfl hpart
  | into hpart hlink h ih =>
      cases h' with
      | back => exact absurd rfl hpart
      | into _ _ h' => exact ih h'
      | link _ hget => exact absurd hget (hlink _)
  | link hpart hget hin h ihin ih =>
      cases h' with
      | back => exact absurd rfl hpart
      | into _ hlink => exact absurd hget (hlink _)
      | link _ hget' hin' h' =>
          rw [hget] at hget'
          cases hget'
          obtain ⟨rfl, rfl⟩ := ihin hin'
          obtain ⟨rfl, rfl⟩ := ih h'
          exact ⟨rfl, rfl⟩

theorem exists_of_resolves_append {rest : List String} {n : Nat}
    (h : files.Resolves here (parts ++ rest) place n) :
    ∃ middle m k, files.Resolves here parts middle m ∧ files.Resolves middle rest place k := by
  induction parts generalizing here n with
  | nil => exact ⟨here, 0, n, .nil here, h⟩
  | cons part parts ih =>
      rw [List.cons_append] at h
      cases h with
      | back h =>
          obtain ⟨middle, m, k, hfirst, hrest⟩ := ih h
          exact ⟨middle, m, k, .back hfirst, hrest⟩
      | into hpart hlink h =>
          obtain ⟨middle, m, k, hfirst, hrest⟩ := ih h
          exact ⟨middle, m, k, .into hpart hlink hfirst, hrest⟩
      | link hpart hget hin h =>
          obtain ⟨middle, m, k, hfirst, hrest⟩ := ih h
          exact ⟨middle, _, k, .link hpart hget hin hfirst, hrest⟩

/-- How parts resolve depends on the links only. -/
theorem Resolves.congr {n : Nat}
    (hlinks : ∀ place text, files.get? place = some (.link text) ↔
      files'.get? place = some (.link text))
    (h : files.Resolves here parts place n) : files'.Resolves here parts place n := by
  induction h with
  | nil here => exact .nil here
  | back _ ih => exact .back ih
  | into hpart hlink _ ih => exact .into hpart (fun text => mt (hlinks _ text).mpr (hlink text)) ih
  | link hpart hget _ _ ihin ih => exact .link hpart ((hlinks _ _).mp hget) ihin ih

/-- Parts resolve to what they spell where there are no links and nothing is taken back. -/
theorem Resolves.eq_append {n : Nat} (h : files.Resolves here parts place n) (hdots : ".." ∉ parts)
    (hnone : ∀ rest text, rest ≠ [] → files.get? (here ++ rest) ≠ some (.link text)) :
    place = here ++ parts := by
  induction h with
  | nil here => exact (List.append_nil here).symm
  | back _ _ => exact absurd List.mem_cons_self hdots
  | @into here place part parts n hpart hlink h ih =>
      have hplace := ih (fun hmem => hdots (List.mem_cons_of_mem _ hmem)) fun rest text hrest => by
        rw [List.append_assoc]
        exact hnone _ text (List.append_ne_nil_of_right_ne_nil _ hrest)
      rw [hplace, List.append_assoc, List.singleton_append]
  | link _ hget _ _ _ _ => exact absurd hget (hnone _ _ (List.cons_ne_nil _ _))

theorem follow_nil (files : FileTree) (last : Bool) (links : Nat) (here : Location) :
    files.follow last links here [] = .ok here := by
  cases links <;> rfl

/-- What links do on a way is another way, with fewer links left. -/
theorem exists_jump (files : FileTree) (last : Bool) (links : Nat) : ∃ jump,
    files.follow last links = files.along jump last ∧ ∀ here parts place,
      jump here parts = .ok place → ∃ fewer < links, files.follow last fewer here parts = .ok place := by
  cases links with
  | zero =>
      refine ⟨_, rfl, ?_⟩
      intro here parts place h
      cases h
  | succ links => exact ⟨_, rfl, fun here parts place h => ⟨links, by omega, h⟩⟩

/-- The links of another tree are links of this one, and its directories are no links here, so that ways
through it resolve here. -/
structure Supports (files after : FileTree) : Prop where
  link : ∀ place text, after.get? place = some (.link text) → files.get? place = some (.link text)
  directory : ∀ place, after.get? place = some .directory →
    ∀ text, files.get? place ≠ some (.link text)

theorem Supports.refl (files : FileTree) : files.Supports files :=
  ⟨fun _ _ h => h, fun _ h _ hlink => by rw [h] at hlink; cases hlink⟩

/-- Every way leads through the place that its beginning resolves to. The beginning may be all of a way
through the tree itself. -/
theorem exists_resolves_of_way {after : FileTree} (hsupports : files.Supports after) {last : Bool}
    {links : Nat} {rest : List String} (hend : rest ≠ [] ∨ last = true ∧ after = files)
    (h : after.follow last links here (parts ++ rest) = .ok place) :
    ∃ middle n left, files.Resolves here parts middle n ∧ n + left ≤ links ∧
      after.follow last left middle rest = .ok place := by
  induction links using Nat.strongRecOn generalizing here parts rest with
  | ind links ihlinks =>
      obtain ⟨jump, hway, hjump⟩ := exists_jump after last links
      induction parts generalizing here with
      | nil => exact ⟨here, 0, links, .nil here, by omega, h⟩
      | cons part parts ih =>
          rw [hway] at h
          cases onward_of_along h with
          | back hpart hrest =>
              rw [← hway] at hrest
              obtain ⟨middle, n, left, hresolves, hle, hleft⟩ := ih hrest
              exact ⟨middle, n, left, hpart ▸ .back hresolves, hle, hleft⟩
          | into hpart hget hrest =>
              rw [← hway] at hrest
              obtain ⟨middle, n, left, hresolves, hle, hleft⟩ := ih hrest
              exact ⟨middle, n, left, .into hpart (hsupports.directory _ hget) hresolves, hle, hleft⟩
          | link hpart text hget hrest =>
              have hmore : parts ++ rest ≠ [] ∨ last = true ∧ after = files :=
                hend.imp_left (List.append_ne_nil_of_right_ne_nil _)
              obtain ⟨fewer, hfewer, hrest⟩ := hjump _ _ _ hrest
              obtain ⟨middle, m, left, hin, hm, hleft⟩ := ihlinks fewer hfewer hmore hrest
              obtain ⟨last, n, left', hresolves, hn, hleft'⟩ := ihlinks left (by omega) hend hleft
              exact ⟨last, m + n + 1, left', .link hpart (hsupports.link _ _ hget) hin hresolves,
                by omega, hleft'⟩
          | last hpart hparts hplace hdirectory hlink =>
              obtain ⟨rfl, rfl⟩ := List.append_eq_nil_iff.mp hparts
              obtain ⟨hlast, rfl⟩ := hend.resolve_left (absurd rfl)
              refine ⟨place, 0, 0, ?_, by omega, by rw [hlast]; rfl⟩
              exact .into hpart (hlink hlast) (hplace ▸ .nil _)

theorem exists_resolves_of_locate {p : Path} (h : files.locate p = .ok place) :
    ∃ n ≤ linkLimit, files.Resolves (files.base p) p.parts place n := by
  unfold locate at h
  rw [← List.append_nil p.parts] at h
  obtain ⟨middle, n, left, hresolves, hn, hleft⟩ :=
    exists_resolves_of_way (.refl files) (.inr ⟨rfl, rfl⟩) h
  rw [follow_nil] at hleft
  exact ⟨n, by omega, Except.ok.inj hleft ▸ hresolves⟩

/-- What a link stands for resolves by way of at least so many links. -/
def Costs (files : FileTree) (n : Nat) (link : Location) : Prop :=
  ∀ text middle m, files.get? link = some (.link text) →
    files.Resolves (if (Path.ofText text).isAbsolute then [] else link.dropLast)
      (Path.ofText text).parts middle m → n ≤ m

theorem Costs.mono {link : Location} {m n : Nat} (h : files.Costs n link) (hle : m ≤ n) :
    files.Costs m link :=
  fun text middle k hget hresolves => Nat.le_trans hle (h text middle k hget hresolves)

theorem foldDots_append (done first second : List String) :
    Path.foldDots done (first ++ second) =
      Path.foldDots (Path.foldDots done first).reverse second := by
  induction first generalizing done with
  | nil => simp [Path.foldDots]
  | cons part first ih =>
      rw [List.cons_append, Path.foldDots, Path.foldDots]
      split
      · exact ih done.tail
      · exact ih (part :: done)

theorem spot_child (files : FileTree) (p : Path) {part : String} (hpart : part ≠ "..") :
    files.spot (p.child part) = files.spot p ++ [part] := by
  change Path.foldDots (files.base p).reverse (p.parts ++ [part]) = _
  rw [foldDots_append, Path.foldDots, if_neg hpart, Path.foldDots, List.reverse_cons,
    List.reverse_reverse, spot]

theorem spot_dots (files : FileTree) (p : Path) : files.spot (p.child "..") = (files.spot p).dropLast := by
  change Path.foldDots (files.base p).reverse (p.parts ++ [".."]) = _
  rw [foldDots_append, Path.foldDots, if_pos rfl, Path.foldDots, List.tail_reverse,
    List.reverse_reverse, spot]

theorem spot_above (files : FileTree) (p : Path) : files.spot p.above = (files.spot p).dropLast := by
  unfold Path.above
  split
  · exact spot_dots files p
  · next hnames =>
    obtain ⟨anchor, parts⟩ := p
    rcases List.eq_nil_or_concat parts with rfl | ⟨names, name, rfl⟩
    · cases anchor with
      | relative => exact absurd (Or.inr ⟨rfl, rfl⟩) hnames
      | root => rfl
      | doubleRoot => rfl
    · have hname : name ≠ ".." := by simpa using hnames
      have hchild := spot_child files ⟨anchor, names⟩ hname
      rw [List.concat_eq_append] at hnames ⊢
      rw [Path.parent, List.dropLast_concat]
      change _ = (files.spot (Path.child ⟨anchor, names⟩ name)).dropLast
      rw [hchild, List.dropLast_concat]

/-- Parts that resolve by way of fewer links than may stand within each other are resolved so. A link
that is being resolved does not come again, since it costs more links than are left. -/
theorem exists_resolveFrom {entered : List Path} {depth n : Nat} {p : Path}
    (h : files.Resolves here parts place n) (hp : files.spot p = here) (hdepth : n < depth)
    (hentered : ∀ link ∈ entered, files.Costs n (files.spot link)) :
    ∃ q, files.resolveFrom depth entered p parts = .done q ∧ files.spot q = place := by
  obtain ⟨depth, rfl⟩ : ∃ d, depth = d + 1 := ⟨depth - 1, by omega⟩
  induction h generalizing depth entered p with
  | nil here => exact ⟨p, rfl, hp⟩
  | back h ih => exact ih (by rw [spot_above, hp]) hentered depth hdepth
  | into hpart hlink h ih =>
      have hnext := hp ▸ spot_child files p hpart
      rw [resolveFrom, resolveAlong, if_neg hpart]
      dsimp only
      rw [hnext]
      split
      · next text hget => exact absurd hget (hlink text)
      · exact ih hnext hentered depth hdepth
  | @link here middle place part text parts m n hpart hget hin h ihin ih =>
      obtain ⟨depth, rfl⟩ : ∃ d, depth = d + 1 := ⟨depth - 1, by omega⟩
      have hnext := hp ▸ spot_child files p hpart
      have hcosts : files.Costs m (files.spot (p.child part)) := by
        rw [hnext]
        intro text' middle' m' hget' hresolves
        rw [hget] at hget'
        cases hget'
        rw [List.dropLast_concat] at hresolves
        exact Nat.le_of_eq (hin.unique hresolves).2
      have hnew : p.child part ∉ entered := by
        intro hmem
        have hmore := hentered _ hmem
        rw [hnext] at hmore
        have hmore := hmore text middle m hget
        rw [List.dropLast_concat] at hmore
        have hle := hmore hin
        omega
      have hbegin : files.spot (if (Path.ofText text).isAbsolute then ⟨.root, []⟩ else p) =
          if (Path.ofText text).isAbsolute then [] else here := by
        split
        · rfl
        · exact hp
      obtain ⟨q, hinner, hq⟩ := ihin hbegin
        (List.forall_mem_cons.mpr ⟨hcosts, fun link hmem => (hentered link hmem).mono (by omega)⟩)
        depth (by omega)
      obtain ⟨r, hrest, hr⟩ := ih hq
        (fun link hmem => (hentered link hmem).mono (by omega)) (depth + 1) (by omega)
      refine ⟨r, ?_, hr⟩
      rw [resolveFrom] at hrest ⊢
      rw [resolveAlong, if_neg hpart]
      dsimp only
      rw [hnext, hget]
      dsimp only
      rw [if_neg (by simpa using hnew), hinner]
      exact hrest

theorem resolve_of_resolves {p : Path} {n : Nat}
    (h : files.Resolves (files.base p) p.parts place n) (hn : n < nestingLimit) :
    files.resolve p = ⟨.root, place⟩ := by
  have hbegin : files.spot ⟨if p.isAbsolute then .root else .relative, []⟩ = files.base p := by
    unfold spot base
    cases p.isAbsolute <;> simp [Path.foldDots, Path.isAbsolute]
  obtain ⟨q, hq, hplace⟩ := exists_resolveFrom h hbegin hn fun link hlink =>
    absurd hlink List.not_mem_nil
  rw [resolve, resolution, hq, Resolution.path, hplace]

/-- A path that leads somewhere resolves to where it leads. -/
theorem resolve_of_locate {p : Path} (h : files.locate p = .ok place) :
    files.resolve p = ⟨.root, place⟩ := by
  obtain ⟨n, hn, hresolves⟩ := exists_resolves_of_locate h
  have hfew : linkLimit < nestingLimit := by decide
  exact resolve_of_resolves hresolves (by omega)

theorem find?_eq_some {p : Path} : files.find? p = some entry ↔
    ∃ place, files.locate p = .ok place ∧ files.get? place = some entry := by
  unfold find?
  cases files.locate p <;> simp

theorem isDirectory_iff {p : Path} : files.isDirectory p = true ↔
    ∃ place, files.locate p = .ok place ∧ files.get? place = some .directory :=
  beq_iff_eq.trans find?_eq_some

theorem fileBytes?_eq_some {p : Path} {bytes : List UInt8} :
    files.fileBytes? p = some bytes ↔ files.find? p = some (.file bytes) := by
  unfold fileBytes?
  split
  · next h => simp [h]
  · next hother => simpa using hother bytes

theorem exists_place_of_fileBytes? {p : Path} {bytes : List UInt8}
    (h : files.fileBytes? p = some bytes) :
    ∃ place, files.resolve p = ⟨.root, place⟩ ∧ files.get? place = some (.file bytes) := by
  obtain ⟨place, hlocate, hget⟩ := find?_eq_some.mp (fileBytes?_eq_some.mp h)
  exact ⟨place, resolve_of_locate hlocate, hget⟩

/-- The bytes of a path are those of the file that it leads to. -/
theorem readBytes_eq_ok {p : Path} {bytes : List UInt8} :
    files.readBytes p = .ok bytes ↔ files.fileBytes? p = some bytes := by
  rw [fileBytes?_eq_some, find?_eq_some]
  unfold readBytes
  cases files.locate p with
  | error cause => simp
  | ok place =>
      cases hget : files.get? place with
      | none => simp [hget]
      | some found => cases found <;> simp [hget]

/-- A path from which a text is read leads to a file. -/
theorem exists_file_of_readText {p : Path} {text : String} (h : files.readText p = .ok text) :
    ∃ place bytes, files.locate p = .ok place ∧ files.get? place = some (.file bytes) := by
  unfold readText at h
  split at h
  · cases h
  · cases hbytes : files.readBytes p with
    | error cause =>
        rw [hbytes] at h
        cases h
    | ok bytes =>
        obtain ⟨place, hfile⟩ :=
          find?_eq_some.mp (fileBytes?_eq_some.mp (readBytes_eq_ok.mp hbytes))
        exact ⟨place, bytes, hfile⟩

theorem exists_place_of_readText {p : Path} {text : String} (h : files.readText p = .ok text) :
    ∃ place bytes, files.resolve p = ⟨.root, place⟩ ∧ files.get? place = some (.file bytes) := by
  obtain ⟨place, bytes, hlocate, hget⟩ := exists_file_of_readText h
  exact ⟨place, bytes, resolve_of_locate hlocate, hget⟩

theorem pathExists_of_readText {p : Path} {text : String} (h : files.readText p = .ok text) :
    files.pathExists p = true := by
  obtain ⟨place, bytes, hfile⟩ := exists_file_of_readText h
  rw [pathExists, find?_eq_some.mpr ⟨place, hfile⟩]
  rfl

/-! ## Trees as a disk holds them -/

/-- The entries of a tree have places of their own, each in a directory or at the top, and the names in
a place are names that a file can have. -/
structure Sound (files : FileTree) : Prop where
  distinct : (files.entries.map Prod.fst).Nodup
  inside : ∀ item ∈ files.entries,
    item.1 ≠ [] ∧ files.get? item.1.dropLast = some .directory
  named : ∀ item ∈ files.entries, ∀ name ∈ item.1, Path.IsPart name ∧ name ≠ ".."
  nullFree : ∀ item ∈ files.entries, ∀ name ∈ item.1, Path.isNull name = false

theorem mem_entries_of_get? (hplace : place ≠ []) (h : files.get? place = some entry) :
    (place, entry) ∈ files.entries := by
  rw [get?_of_ne_nil hplace] at h
  exact mem_of_lookup h

/-- What stands above an entry is a directory. -/
theorem Sound.directory_above (hsound : files.Sound) {rest : List String} (hrest : rest ≠ [])
    (h : files.get? (place ++ rest) = some entry) : files.get? place = some .directory := by
  induction rest using List.reverseRecOn generalizing entry with
  | nil => exact absurd rfl hrest
  | append_singleton rest name ih =>
      have hne : place ++ (rest ++ [name]) ≠ [] := by simp
      have habove := (hsound.inside _ (mem_entries_of_get? hne h)).2
      dsimp only at habove
      rw [← List.append_assoc, List.dropLast_concat] at habove
      by_cases hempty : rest = []
      · rwa [hempty, List.append_nil] at habove
      · exact ih hempty habove

theorem Sound.isPart (hsound : files.Sound) (h : files.get? place = some entry) :
    ∀ name ∈ place, Path.IsPart name ∧ name ≠ ".." := by
  by_cases hempty : place = []
  · rw [hempty]
    exact List.forall_mem_nil _
  · exact hsound.named _ (mem_entries_of_get? hempty h)

theorem Sound.rooted (hsound : files.Sound) (h : files.get? place = some entry) :
    (⟨.root, place⟩ : Path).Rooted :=
  ⟨rfl, Path.exists_ofText_iff.mpr fun name hname => (hsound.isPart h name hname).1⟩

/-- The place of an entry is where the path that names it leads. -/
theorem Sound.locate_self (hsound : files.Sound) (h : files.get? place = some entry)
    (hentry : ∀ text, entry ≠ .link text) : files.locate ⟨.root, place⟩ = .ok place := by
  induction place using List.reverseRecOn generalizing entry with
  | nil => rfl
  | append_singleton above name ih =>
      have habove := hsound.directory_above (List.cons_ne_nil name []) h
      have hname := (hsound.isPart h name (by simp)).2
      exact locate_child (p := ⟨.root, above⟩) hname habove h hentry (ih habove (by simp))

/-- The place of an entry, and every place above it, resolves to itself. -/
theorem Sound.resolve_self (hsound : files.Sound) {rest : List String}
    (h : files.get? (place ++ rest) = some entry) (hentry : ∀ text, entry ≠ .link text) :
    files.resolve ⟨.root, place⟩ = ⟨.root, place⟩ := by
  by_cases hrest : rest = []
  · rw [hrest, List.append_nil] at h
    exact resolve_of_locate (hsound.locate_self h hentry)
  · have habove := hsound.directory_above hrest h
    exact resolve_of_locate (hsound.locate_self habove (by simp))

theorem Sound.isNull (hsound : files.Sound) (h : files.get? place = some entry) :
    ∀ name ∈ place, Path.isNull name = false := by
  by_cases hempty : place = []
  · rw [hempty]
    exact List.forall_mem_nil _
  · exact hsound.nullFree _ (mem_entries_of_get? hempty h)

theorem Sound.isNull_of_child (hsound : files.Sound) {part : String}
    (h : files.get? (here ++ [part]) = some entry) : Path.isNull part = false :=
  hsound.isNull h part (List.mem_append_right here List.mem_cons_self)

/-- A way that leads to an entry has no part that cannot be a name. -/
theorem Sound.isNull_of_follow (hsound : files.Sound) {links : Nat}
    (hplace : files.get? place = some entry) (h : files.follow true links here parts = .ok place) :
    ∀ part ∈ parts, Path.isNull part = false := by
  induction links using Nat.strongRecOn generalizing here parts with
  | ind links ihlinks =>
      obtain ⟨jump, hway, hjump⟩ := exists_jump files true links
      induction parts generalizing here with
      | nil => exact List.forall_mem_nil _
      | cons part parts ih =>
          rw [hway] at h
          refine List.forall_mem_cons.mpr ?_
          cases onward_of_along h with
          | back hpart hrest => exact ⟨hpart ▸ by decide, ih (hway ▸ hrest)⟩
          | into hpart hget hrest => exact ⟨hsound.isNull_of_child hget, ih (hway ▸ hrest)⟩
          | link hpart text hget hrest =>
              obtain ⟨fewer, hfewer, hrest⟩ := hjump _ _ _ hrest
              have hall := ihlinks fewer hfewer hrest
              exact ⟨hsound.isNull_of_child hget, fun name hname =>
                hall name (List.mem_append_right _ hname)⟩
          | last hpart hparts hend _ _ =>
              rw [← hend] at hplace
              exact ⟨hsound.isNull_of_child hplace, hparts ▸ List.forall_mem_nil _⟩

theorem Sound.holdsNull_of_find? (hsound : files.Sound) {p : Path} (h : files.find? p = some entry) :
    p.holdsNull = false := by
  obtain ⟨place, hlocate, hget⟩ := find?_eq_some.mp h
  exact List.any_eq_false.mpr fun part hpart =>
    Bool.not_eq_true _ ▸ hsound.isNull_of_follow hget hlocate part hpart

/-- A path that leads to a file or a directory is settled by where it resolves to. -/
theorem Sound.settle_of_find? (hsound : files.Sound) {p : Path} (h : files.find? p = some entry)
    (hentry : ∀ text, entry ≠ .link text) : files.settle p = .ok (files.resolve p) := by
  obtain ⟨place, hlocate, hget⟩ := find?_eq_some.mp h
  have hresolve := resolve_of_locate hlocate
  have hself := hsound.locate_self hget hentry
  have hmeets : files.meetsNull p = false := by
    rw [meetsNull, hsound.holdsNull_of_find? h, Bool.false_and]
  have hnull : (files.resolve p).holdsNull = false :=
    hsound.holdsNull_of_find? (find?_eq_some.mpr ⟨place, hresolve ▸ hself, hget⟩)
  have hcircles : files.circles p = false := by rw [circles, hresolve, hself]
  rw [settle, hmeets, hnull, hcircles]
  rfl

theorem Sound.settle_of_isDirectory (hsound : files.Sound) {p : Path}
    (h : files.isDirectory p = true) : files.settle p = .ok (files.resolve p) :=
  hsound.settle_of_find? (beq_iff_eq.mp h) (by simp)

theorem Sound.settle_of_readText (hsound : files.Sound) {p : Path} {text : String}
    (h : files.readText p = .ok text) : files.settle p = .ok (files.resolve p) := by
  obtain ⟨place, bytes, hfile⟩ := exists_file_of_readText h
  exact hsound.settle_of_find? (find?_eq_some.mpr ⟨place, hfile⟩) (by simp)

theorem Sound.isDirectory_resolve (hsound : files.Sound) {p : Path}
    (h : files.isDirectory p = true) : files.isDirectory (files.resolve p) = true := by
  obtain ⟨place, hlocate, hget⟩ := isDirectory_iff.mp h
  rw [resolve_of_locate hlocate]
  exact isDirectory_iff.mpr ⟨place, hsound.locate_self hget (by simp), hget⟩

theorem resolve_of_settle {p q : Path} (h : files.settle p = .ok q) : files.resolve p = q := by
  unfold settle at h
  grind

/-! ## Trees with the same entries -/

/-- Two trees have the same entries, in whatever order. -/
structure Shuffled (files files' : FileTree) : Prop where
  entries : files.entries.Perm files'.entries
  current : files.current = files'.current

theorem Shuffled.get?_eq (h : files.Shuffled files') (hsound : files.Sound) (place : Location) :
    files.get? place = files'.get? place := by
  have hdistinct : (files'.entries.map Prod.fst).Nodup :=
    (h.entries.map Prod.fst).nodup_iff.mp hsound.distinct
  by_cases hempty : place = []
  · rw [hempty, get?_nil, get?_nil]
  · rw [get?_of_ne_nil hempty, get?_of_ne_nil hempty]
    refine Option.ext fun entry => ?_
    constructor
    · intro hentry
      exact lookup_of_mem hdistinct (h.entries.mem_iff.mp (mem_of_lookup hentry))
    · intro hentry
      exact lookup_of_mem hsound.distinct (h.entries.mem_iff.mpr (mem_of_lookup hentry))

theorem Shuffled.symm (h : files.Shuffled files') : files'.Shuffled files :=
  ⟨h.entries.symm, h.current.symm⟩

theorem Shuffled.sound (h : files.Shuffled files') (hsound : files.Sound) : files'.Sound where
  distinct := (h.entries.map Prod.fst).nodup_iff.mp hsound.distinct
  inside item hitem := by
    rw [← h.get?_eq hsound]
    exact hsound.inside item (h.entries.mem_iff.mpr hitem)
  named item hitem := hsound.named item (h.entries.mem_iff.mpr hitem)
  nullFree item hitem := hsound.nullFree item (h.entries.mem_iff.mpr hitem)

/-! ## What depends on look-ups only -/

/-- In two trees the same stands everywhere. -/
structure Agrees (files files' : FileTree) : Prop where
  get? : ∀ place, files.get? place = files'.get? place
  current : files.current = files'.current

theorem Shuffled.agrees (h : files.Shuffled files') (hsound : files.Sound) :
    files.Agrees files' :=
  ⟨h.get?_eq hsound, h.current⟩

namespace Agrees

variable (h : files.Agrees files')

include h

theorem along {jump jump' : Location → List String → Except OsCause Location}
    (hjump : ∀ here parts, jump here parts = jump' here parts) (last : Bool) (here : Location)
    (parts : List String) :
    files.along jump last here parts = files'.along jump' last here parts := by
  induction parts generalizing here with
  | nil => rfl
  | cons part parts ih =>
      rw [FileTree.along, FileTree.along]
      simp only [h.get?, ih, hjump]

theorem follow (last : Bool) (links : Nat) (here : Location) (parts : List String) :
    files.follow last links here parts = files'.follow last links here parts := by
  induction links generalizing here parts with
  | zero => exact h.along (fun _ _ => rfl) last here parts
  | succ links ih => exact h.along ih last here parts

theorem base (p : Path) : files.base p = files'.base p := by
  rw [FileTree.base, FileTree.base, h.current]

theorem locate (p : Path) : files.locate p = files'.locate p := by
  rw [FileTree.locate, FileTree.locate, h.base, h.follow]

theorem find? (p : Path) : files.find? p = files'.find? p := by
  rw [FileTree.find?, FileTree.find?, h.locate]
  simp only [h.get?]

theorem pathExists (p : Path) : files.pathExists p = files'.pathExists p := by
  rw [FileTree.pathExists, FileTree.pathExists, h.find?]

theorem isDirectory (p : Path) : files.isDirectory p = files'.isDirectory p := by
  rw [FileTree.isDirectory, FileTree.isDirectory, h.find?]

theorem fileBytes? (p : Path) : files.fileBytes? p = files'.fileBytes? p := by
  rw [FileTree.fileBytes?, FileTree.fileBytes?, h.find?]

theorem readText (p : Path) : files.readText p = files'.readText p := by
  have hbytes : files.readBytes p = files'.readBytes p := by
    rw [FileTree.readBytes, FileTree.readBytes, h.locate]
    simp only [h.get?]
  rw [FileTree.readText, FileTree.readText, hbytes]

theorem spot (p : Path) : files.spot p = files'.spot p := by
  rw [FileTree.spot, FileTree.spot, h.base]

theorem resolveFrom (depth : Nat) (entered : List Path) (here : Path) (parts : List String) :
    files.resolveFrom depth entered here parts = files'.resolveFrom depth entered here parts := by
  have hstep {enter enter' : Path → Path → List String → Resolution}
      (henter : ∀ link here parts, enter link here parts = enter' link here parts)
      (here : Path) (parts : List String) :
      files.resolveAlong enter here parts = files'.resolveAlong enter' here parts := by
    induction parts generalizing here with
    | nil => rfl
    | cons part parts ih =>
        rw [FileTree.resolveAlong, FileTree.resolveAlong]
        simp only [h.get?, h.spot, ih, henter]
  induction depth generalizing entered here parts with
  | zero => rfl
  | succ depth ih => exact hstep (fun _ _ _ => by rw [ih]) here parts

theorem resolution (p : Path) (parts : List String) :
    files.resolution p parts = files'.resolution p parts := h.resolveFrom _ _ _ _

theorem resolve (p : Path) : files.resolve p = files'.resolve p := by
  rw [FileTree.resolve, FileTree.resolve, h.resolution, h.spot]

theorem settle (p : Path) : files.settle p = files'.settle p := by
  have hmeets : files.meetsNull p = files'.meetsNull p := by
    rw [meetsNull, meetsNull, h.resolution]
  have hcircles : files.circles p = files'.circles p := by
    rw [circles, circles, h.resolve, h.locate]
  rw [FileTree.settle, FileTree.settle, hmeets, hcircles, h.resolve]

end Agrees

end TypeTrace.FileTree
