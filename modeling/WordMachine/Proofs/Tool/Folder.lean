import Mathlib.Tactic.Common
import WordMachine.Proofs.Except
import WordMachine.Tool.Folder

/-!
# Files that are written and read again

A path leads to one place at most (`Folder.locate`), and a file that is written is put there
(`Folder.Writes`). No directory comes or goes with it (`Folder.Writes.isDirectory_eq`), so that all
paths lead where they did (`Folder.Writes.locate_iff`). What is read there is what was written
(`Folder.Writes.read_self`), and what is read anywhere else is what was there before
(`Folder.Writes.read_iff`). So it is with files that are written one after another, even if one
cannot be (`Folder.read_writeAll_iff`, `Folder.read_of_writeAll_append`).
-/

namespace WordMachine.Tool.Folder

variable {folder next : Folder} {w : Writing} {path other : String} {place : Location}
  {bytes : List UInt8}

/-- The place that a path leads to. -/
def locate (folder : Folder) (path : String) : Except FileFault Location :=
  folder.follow path (namesOf path)

/-- Two paths lead to one place, and so name the same file if there is one. -/
def SameFile (folder : Folder) (path other : String) : Prop :=
  ∃ place, folder.locate path = .ok place ∧ folder.locate other = .ok place

/-! ## Following a path -/

theorem isDirectory_iff : folder.isDirectory place = true ↔
    (∀ name ∈ place, name = ".." ∨ name = "/") ∨
      ∃ file ∈ folder.files, place <:+ file.1 ∧ place ≠ file.1 := by
  simp only [isDirectory, Bool.or_eq_true, List.all_eq_true, List.any_eq_true, Bool.and_eq_true,
    decide_eq_true_eq, List.isSuffixOf_iff_suffix, bne_iff_ne]

/-- What is around a directory is one. -/
theorem isDirectory_of_suffix {p : Location} (hplace : folder.isDirectory place = true)
    (hp : p <:+ place) : folder.isDirectory p = true := by
  rw [isDirectory_iff] at hplace ⊢
  rcases hplace with haround | ⟨file, hfile, hsuffix, hne⟩
  · exact .inl fun name hname => haround name (hp.subset hname)
  · refine .inr ⟨file, hfile, hp.trans hsuffix, ?_⟩
    rintro rfl
    exact hne (hsuffix.eq_of_length_le hp.length_le)

theorem needDirectory_eq_ok_iff {u : Unit} :
    folder.needDirectory place = .ok u ↔ folder.isDirectory place = true := by
  rw [needDirectory]
  split
  · next h => exact iff_of_true rfl h
  · next h =>
    split
    · exact iff_of_false nofun h
    · exact iff_of_false nofun h

theorem needName_eq_ok_iff {name : String} {u : Unit} :
    needName name = .ok u ↔ name.utf8ByteSize ≤ 255 := by
  rw [needName, Except.ite_eq_ok_iff]
  exact and_iff_left rfl

/-- A name leads on from a directory only. -/
theorem enter_eq_ok_iff {name : String} {next : Location} :
    folder.enter place name = .ok next ↔ folder.isDirectory place = true ∧
      (if name = "" ∨ name = "." then place = next
        else if name = ".." then place.around = next
        else name.utf8ByteSize ≤ 255 ∧ name :: place = next) := by
  rw [enter, Except.unit_bind_eq_ok_iff]
  simp only [needDirectory_eq_ok_iff, Bool.or_eq_true, decide_eq_true_eq]
  refine and_congr_right fun _ => ?_
  split
  · rw [Except.ok.injEq]
  · split
    · rw [Except.ok.injEq]
    · rw [Except.unit_bind_eq_ok_iff, needName_eq_ok_iff, Except.ok.injEq]

/-- In folders with the same directories a path leads to the same place. -/
theorem locate_eq_ok_iff (h : ∀ place, next.isDirectory place = folder.isDirectory place) :
    next.locate path = .ok place ↔ folder.locate path = .ok place := by
  rw [locate, locate, follow, follow]
  generalize (if path.toList.head? = some '/' then ["/"] else []) = start
  generalize namesOf path = names
  induction names generalizing start with
  | nil => rfl
  | cons name names ih =>
    simp only [List.foldlM_cons, Except.bind_eq_ok_iff, enter_eq_ok_iff, h, ih]

/-- A path can be read if it leads to a file. -/
theorem read_eq_ok_iff :
    folder.read path = .ok bytes ↔ needPath path = .ok () ∧
      ∃ place, folder.locate path = .ok place ∧ folder.file? place = some bytes := by
  rw [read, Except.unit_bind_eq_ok_iff]
  refine and_congr_right fun _ => ?_
  rw [Except.bind_eq_ok_iff]
  refine exists_congr fun place => and_congr_right fun _ => ?_
  rcases folder.file? place with _ | found
  · refine iff_of_false ?_ nofun
    dsimp only
    split <;> nofun
  · rw [Except.ok.injEq, Option.some.injEq]

/-! ## Writing a file -/

/-- `next` is the folder with the bytes of `w` in a file where its path leads: the file `name` in
    the directory at `place`, which is new or takes the place of the one that was there. -/
structure Writes (folder : Folder) (w : Writing) (next : Folder) (name : String)
    (place : Location) : Prop where
  needPath : needPath w.path = .ok ()
  locate : folder.locate w.path = .ok (name :: place)
  inDirectory : folder.isDirectory place = true
  files : next.files =
    (name :: place, w.bytes) :: folder.files.filter (·.1 != name :: place)

/-- The last name of a path that does not end in a slash. -/
theorem eq_append_of_dropWhile {names before : List String} {name : String}
    (h : names.reverse.dropWhile (· = "") = name :: before) (hlast : names.getLast? ≠ some "") :
    names = before.reverse ++ [name] ∧ name ≠ "" := by
  rw [← List.head?_reverse] at hlast
  have hkept : names.reverse.dropWhile (· = "") = names.reverse := by
    rcases hnames : names.reverse with _ | ⟨first, rest⟩
    · rfl
    · rw [hnames] at hlast
      exact List.dropWhile_cons_of_neg (by simpa using hlast)
  rw [hkept] at h
  refine ⟨?_, fun hname => hlast ?_⟩
  · rw [← List.reverse_reverse names, h, List.reverse_cons]
  · rw [h, hname]
    rfl

/-- What can be written is written to where its path leads. -/
theorem exists_writes (h : folder.write w = .ok next) :
    ∃ name place, folder.Writes w next name place := by
  rw [write, Except.unit_bind_eq_ok_iff] at h
  obtain ⟨hpath, h⟩ := h
  dsimp only at h
  split at h
  · cases h
  · next name before hnames =>
    obtain ⟨place, hfollow, h⟩ := Except.bind_eq_ok_iff.1 h
    rw [Except.unit_bind_eq_ok_iff, needDirectory_eq_ok_iff] at h
    obtain ⟨hdirectory, h⟩ := h
    split at h
    · cases h
    · next hname =>
      simp only [Bool.or_eq_true, decide_eq_true_eq, not_or] at hname
      obtain ⟨⟨hlast, hdot⟩, hdots⟩ := hname
      obtain ⟨hsplit, hempty⟩ := eq_append_of_dropWhile hnames hlast
      rw [Except.unit_bind_eq_ok_iff, needName_eq_ok_iff] at h
      obtain ⟨hshort, h⟩ := h
      split at h
      · cases h
      · obtain rfl := Except.ok.inj h
        refine ⟨name, place, hpath, ?_, hdirectory, rfl⟩
        -- The names before the last one lead to the directory, and the last one leads on from it.
        have henter : folder.enter place name = .ok (name :: place) := by
          rw [enter_eq_ok_iff, if_neg (not_or.2 ⟨hempty, hdot⟩), if_neg hdots]
          exact ⟨hdirectory, hshort, rfl⟩
        rw [follow] at hfollow
        rw [Folder.locate, follow, hsplit, List.foldlM_append, hfollow]
        simpa using henter

/-- What is taken away at one place is not missed at another. -/
theorem lookup_filter_of_ne {p q : Location} (h : p ≠ q) (files : List (Location × List UInt8)) :
    (files.filter (·.1 != q)).lookup p = files.lookup p := by
  induction files with
  | nil => rfl
  | cons file files ih =>
    obtain ⟨r, found⟩ := file
    by_cases hr : r = q
    · have hpr : (p == r) = false := by simpa [hr] using h
      rw [List.filter_cons_of_neg (by simpa using hr), ih, List.lookup_cons, hpr]
    · rw [List.filter_cons_of_pos (by simpa using hr), List.lookup_cons, List.lookup_cons, ih]

namespace Writes

variable {name : String} (h : folder.Writes w next name place)

include h

theorem file?_eq (p : Location) :
    next.file? p = if p = name :: place then some w.bytes else folder.file? p := by
  rw [file?, file?, h.files, List.lookup_cons]
  split
  · next heq => rw [if_pos (beq_iff_eq.1 heq)]
  · next hne =>
    have hp : p ≠ name :: place := by simpa using hne
    rw [if_neg hp, lookup_filter_of_ne hp]

/-- No directory comes or goes with a file. -/
theorem isDirectory_eq (p : Location) : next.isDirectory p = folder.isDirectory p := by
  rw [Bool.eq_iff_iff, isDirectory_iff, isDirectory_iff, h.files]
  constructor
  · rintro (haround | ⟨file, hfile, hsuffix, hne⟩)
    · exact .inl haround
    · rcases List.mem_cons.1 hfile with rfl | hfile
      · -- The new file is only in directories that its own directory is in, or is.
        rcases List.suffix_cons_iff.1 hsuffix with rfl | hsuffix
        · exact absurd rfl hne
        · exact isDirectory_iff.1 (isDirectory_of_suffix h.inDirectory hsuffix)
      · exact .inr ⟨file, (List.mem_filter.1 hfile).1, hsuffix, hne⟩
  · rintro (haround | ⟨file, hfile, hsuffix, hne⟩)
    · exact .inl haround
    · by_cases hreplaced : file.1 = name :: place
      · -- The file that is replaced was in the same directories.
        exact .inr ⟨_, List.mem_cons_self, hreplaced ▸ hsuffix, hreplaced ▸ hne⟩
      · refine .inr ⟨file, List.mem_cons_of_mem _ (List.mem_filter.2 ⟨hfile, ?_⟩), hsuffix, hne⟩
        exact bne_iff_ne.2 hreplaced

theorem locate_iff {p : Location} : next.locate path = .ok p ↔ folder.locate path = .ok p :=
  locate_eq_ok_iff h.isDirectory_eq

/-- What is written is read again. -/
theorem read_self : next.read w.path = .ok w.bytes := by
  refine read_eq_ok_iff.2 ⟨h.needPath, name :: place, h.locate_iff.2 h.locate, ?_⟩
  rw [h.file?_eq, if_pos rfl]

/-- Elsewhere nothing else is read than before. -/
theorem read_iff (hother : ¬folder.SameFile w.path other) :
    next.read other = .ok bytes ↔ folder.read other = .ok bytes := by
  rw [read_eq_ok_iff, read_eq_ok_iff]
  refine and_congr_right fun _ => exists_congr fun p => ?_
  rw [h.locate_iff]
  refine and_congr_right fun hp => ?_
  have hne : p ≠ name :: place := by
    rintro rfl
    exact hother ⟨_, h.locate, hp⟩
  rw [h.file?_eq, if_neg hne]

theorem sameFile_iff {path : String} : next.SameFile path other ↔ folder.SameFile path other :=
  exists_congr fun _ => and_congr h.locate_iff h.locate_iff

end Writes

/-! ## Writing files one after another -/

variable {ws : List Writing}

/-- Files that are written, or that cannot be, leave the other ones as they are. -/
theorem read_writeAll_iff (hother : ∀ w ∈ ws, ¬folder.SameFile w.path other) :
    (folder.writeAll ws).1.read other = .ok bytes ↔ folder.read other = .ok bytes := by
  induction ws generalizing folder with
  | nil => rfl
  | cons w ws ih =>
    rw [writeAll]
    rcases hwrite : folder.write w with fault | next
    · rfl
    · obtain ⟨name, place, h⟩ := exists_writes hwrite
      obtain ⟨hw, hws⟩ := List.forall_mem_cons.1 hother
      exact (ih fun v hv hsame => hws v hv (h.sameFile_iff.1 hsame)).trans (h.read_iff hw)

/-- If all files are written, the last one of them holds what was written to it. -/
theorem read_of_writeAll_append (h : folder.writeAll (ws ++ [w]) = (next, none)) :
    next.read w.path = .ok w.bytes := by
  induction ws generalizing folder with
  | nil =>
    rw [List.nil_append, writeAll] at h
    rcases hwrite : folder.write w with fault | written
    · simp [hwrite] at h
    · obtain ⟨name, place, hwrites⟩ := exists_writes hwrite
      rw [hwrite] at h
      obtain rfl : written = next := (Prod.mk.inj h).1
      exact hwrites.read_self
  | cons v ws ih =>
    rw [List.cons_append, writeAll] at h
    rcases hwrite : folder.write v with fault | written
    · simp [hwrite] at h
    · rw [hwrite] at h
      exact ih h

end WordMachine.Tool.Folder
