import WordMachine.Proofs.Assembly.Disassembled
import WordMachine.Proofs.Tool.Folder
import WordMachine.Proofs.Tool.Loading
import WordMachine.Tool.Disassemble

/-!
# Showing what was assembled

The image that a source is assembled into is written to a file, and the file is read back and shown
(`shown_of_assembled`). What is shown is what the assembly has in memory, from the address that the
image starts at up to the last one written (`Image.Shows`): a line with what the word says, which
assembles to this word again (`SaysWord`), and for all other addresses a line without a word. A
source with faults is not written at all, and the file for the image stays as it is.
-/

namespace WordMachine

open Tool

/-! ## The line for an address -/

/-- The text, assembled by itself, is the word and nothing else. -/
def SaysWord (text : String) (w : Word) : Prop :=
  ∃ a, assemble text = .ok a ∧ a.success = true ∧ a.symbols = [] ∧ a.changes = [⟨0, w⟩]

theorem saysWord_disassemble (w : Word) : SaysWord (disassemble w) w := by
  have hfit : Piece.Fit 0 [.word w] := ⟨by decide, trivial⟩
  have htext : "\n".intercalate ([Piece.word w].map Piece.text) = disassemble w :=
    String.intercalate_singleton
  obtain ⟨a, ha, hsuccess, hsymbols, hchanges⟩ := exists_assemble_pieces hfit
  rw [htext] at ha
  exact ⟨a, ha, hsuccess, hsymbols, hchanges⟩

/-- No word is said in the way that a line without one is written. -/
theorem disassemble_ne_unmapped (w : Word) : disassemble w ≠ "<unmapped>" := by
  intro heq
  let line : SourceLine := ⟨1, "<unmapped>", Statement.ofLine "<unmapped>".toList⟩
  have hholds : line.Holds w := SourceLine.holds_of_disassemble (by rw [heq])
  have hwords := hholds.words ⟨[], []⟩ (fun s hs => nomatch hs) 0 (Nat.zero_le _)
  have hfault : (line.words? ⟨[], []⟩ 0).bind Except.toOption = none := by decide +kernel
  rw [hwords] at hfault
  cases hfault

namespace Image

variable {image : Image} {x w : Word} {showWords : Bool}

/-- The line for an address has `text` behind the address. -/
def LineSays (image : Image) (showWords : Bool) (x : Word) (text : String) : Prop :=
  image.lineText showWords x.toNat = Numeral.hexLiteral x.toNat ++ ": " ++ text ++ "\n"

/-- What is shown of a word: its number, if this is wanted, and what it says. -/
def shownWord (showWords : Bool) (w : Word) (text : String) : String :=
  (if showWords then Numeral.hex 4 w.toNat ++ "  " else "") ++ text

theorem lineSays_of_none (h : image.read? x = none) :
    image.LineSays showWords x "<unmapped>" := by
  have hend : ": <unmapped>\n" = ": " ++ "<unmapped>" ++ "\n" := by decide
  rw [LineSays, lineText, BitVec.ofNat_toNat, BitVec.setWidth_eq, h]
  simp only [hend, String.append_assoc]

theorem lineSays_of_some (h : image.read? x = some w) :
    image.LineSays showWords x (shownWord showWords w (disassemble w)) := by
  rw [LineSays, lineText, BitVec.ofNat_toNat, BitVec.setWidth_eq, h]
  rcases showWords with _ | _
  · simp [shownWord, String.append_assoc, toString]
  · simp [shownWord, String.append_assoc, toString]

/-- A line says one thing. -/
theorem LineSays.eq {text other : String} (h : image.LineSays showWords x text)
    (hother : image.LineSays showWords x other) : text = other := by
  rw [LineSays] at h hother
  rw [h] at hother
  simpa using hother

theorem shownWord_ne_unmapped : shownWord showWords w (disassemble w) ≠ "<unmapped>" := by
  rcases showWords with _ | _
  · rw [shownWord, if_neg Bool.false_ne_true, String.empty_append]
    exact disassemble_ne_unmapped w
  · -- Behind the number of the word there are spaces.
    intro heq
    have hspace : ' ' ∈ "<unmapped>".toList := by
      rw [← heq]
      simp [shownWord]
    revert hspace
    decide

/-- The image shows what is in memory from `start` up to but not including `stop`, and nothing
    else. -/
structure Shows (image : Image) (m : Memory) (start : Word) (stop : Nat) : Prop where
  read? : ∀ x, image.read? x = if start ≤ x ∧ x.toNat < stop then some (m.read x) else none
  unmapped : ∀ showWords x, image.LineSays showWords x "<unmapped>" ↔
    ¬(start ≤ x ∧ x.toNat < stop)
  mapped : ∀ showWords x, start ≤ x → x.toNat < stop → ∃ text,
    image.LineSays showWords x (shownWord showWords (m.read x) text) ∧ SaysWord text (m.read x)

theorem shows_of_read? {m : Memory} {start : Word} {stop : Nat}
    (h : ∀ x, image.read? x = if start ≤ x ∧ x.toNat < stop then some (m.read x) else none) :
    image.Shows m start stop where
  read? := h
  unmapped showWords x := by
    have hread := h x
    by_cases hx : start ≤ x ∧ x.toNat < stop
    · -- The line says a word then, and it says nothing else.
      rw [if_pos hx] at hread
      refine iff_of_false (fun hline => ?_) (not_not.2 hx)
      exact shownWord_ne_unmapped ((lineSays_of_some hread).eq hline)
    · rw [if_neg hx] at hread
      exact iff_of_true (lineSays_of_none hread) hx
  mapped showWords x hstart hstop := by
    have hread := h x
    rw [if_pos ⟨hstart, hstop⟩] at hread
    exact ⟨_, lineSays_of_some hread, saysWord_disassemble _⟩

end Image

/-- The image of an assembly from an address on has the words in memory up to its end. -/
theorem Assembly.shows_image (a : Assembly) (start : Word) :
    (⟨start, (a.image start).toArray⟩ : Image).Shows a.memory start a.imageEnd := by
  refine Image.shows_of_read? fun x => ?_
  rw [Image.read?]
  by_cases hstart : start ≤ x
  · have hle : start.toNat ≤ x.toNat := hstart
    have hplace : start.toNat + (x.toNat - start.toNat) = x.toNat := Nat.add_sub_of_le hle
    have haddress : start + BitVec.ofNat 16 (x.toNat - start.toNat) = x := by
      have hlt : start.toNat + (x.toNat - start.toNat) < 0x10000 := hplace.symm ▸ x.isLt
      refine BitVec.eq_of_toNat_eq ?_
      rw [Memory.toNat_add_ofNat_of_lt hlt, hplace]
    rw [if_pos hstart, List.getElem?_toArray, a.getElem?_image, hplace, haddress]
    simp only [hstart, true_and]
  · rw [if_neg hstart, if_neg fun h => hstart h.1]

namespace Tool

variable {folder : Folder} {source : String} {a : Assembly} {o : AssembleOptions}

/-! ## The tool that shows an image -/

namespace DisassembleOptions

variable {d : DisassembleOptions} {files : Files} {image : Image} {base : Word}
  {bytes : List UInt8}

/-- The options are for a whole file, as an image at `base`. -/
structure ShowsWhole (d : DisassembleOptions) (base : Word) : Prop where
  base : readEnd d.base = .ok base.toNat
  skip : d.skip = 0
  length : d.length = none

theorem image_of_showsWhole (h : d.ShowsWhole base) (hbytes : files d.path = .ok bytes)
    (himage : Image.ofBytes bytes base 0 none = .ok image) : d.image files = .ok image := by
  have hbase : ¬0x10000 ≤ base.toNat := Nat.not_le.2 base.isLt
  rw [DisassembleOptions.image, h.base, h.skip, h.length, hbytes]
  simp only [Except.mapError_ok, Except.ok_bind, if_neg hbase, BitVec.ofNat_toNat,
    BitVec.setWidth_eq, himage]

/-- The report of a tool that shows the range of addresses from `i` up to but not including `j`. -/
theorem perform_range {start stop : String} {showWords : Bool} {out : Option String} {i j : Nat}
    (himage : d.image files = .ok image) (hview : d.view = .range start stop showWords out)
    (hstart : readEnd start = .ok i) (hstop : readEnd stop = .ok j) (hle : i ≤ j) :
    d.perform files = out.elim { output := image.rangeText i j showWords } fun path =>
      { writings := [.ofText path (image.rangeText i j showWords)] } := by
  have hreport : d.reportOf image = .ok (out.elim { output := image.rangeText i j showWords }
      fun path => { writings := [.ofText path (image.rangeText i j showWords)] }) := by
    rw [reportOf, hview]
    simp only [hstart, hstop, Except.mapError_ok, Except.ok_bind, if_neg (Nat.not_lt.2 hle)]
    rcases out with _ | path
    · rfl
    · rfl
  rw [perform, himage]
  simp only [Except.bind, hreport]

end DisassembleOptions

/-! ## The tool that assembles -/

namespace AssembleOptions

/-- The file for the record, if there is to be one. -/
def recordWritings (o : AssembleOptions) (a : Assembly) : List Writing :=
  (o.record.map fun path => Writing.ofText path a.record.pretty).toList

theorem writings_reportOf (o : AssembleOptions) (a : Assembly) :
    (o.reportOf a).writings = o.recordWritings a ++
      if a.success then [⟨o.image, bytesOfWords (a.image o.start)⟩] else [] := by
  rw [reportOf]
  split
  · rfl
  · exact (List.append_nil _).symm

theorem isSome_failure_reportOf (o : AssembleOptions) (a : Assembly) :
    (o.reportOf a).failure.isSome = !a.success := by
  rw [reportOf]
  rcases a.success with _ | _
  · rfl
  · rfl

/-- With a fault in the source the tool fails, however it fares with the file for the record. -/
theorem code_ending_of_not_success (h : a.success = false) (fault : Option FileFault) :
    ((o.reportOf a).ending fault).code = 1 := by
  have hfailure : (o.reportOf a).failure.isSome = true := by
    rw [isSome_failure_reportOf, h]
    rfl
  rcases fault with _ | fault
  · rw [Report.ending, Ending.code, if_pos hfailure]
  · rfl

/-- With a fault in the source only the record is written, and nothing that is read elsewhere
    changes. -/
theorem read_writeAll_of_not_success (h : a.success = false) {other : String}
    (hother : ∀ record, o.record = some record → ¬folder.SameFile record other)
    (bytes : List UInt8) :
    (folder.writeAll (o.reportOf a).writings).1.read other = .ok bytes ↔
      folder.read other = .ok bytes := by
  refine Folder.read_writeAll_iff fun w hw => ?_
  rw [writings_reportOf, h, recordWritings] at hw
  rcases hrecord : o.record with _ | record
  · simp [hrecord] at hw
  · obtain rfl : w = Writing.ofText record a.record.pretty := by simpa [hrecord] using hw
    exact hother record hrecord

/-- Without a fault in the source the image is written last, and so it is what is read. -/
theorem read_image_of_success (h : a.success = true) {written : Folder}
    (hwritten : folder.writeAll (o.reportOf a).writings = (written, none)) :
    written.read o.image = .ok (bytesOfWords (a.image o.start)) := by
  rw [writings_reportOf, if_pos h] at hwritten
  exact Folder.read_of_writeAll_append hwritten

end AssembleOptions

/-- A file can be written beside another one, whatever is written. -/
theorem Folder.write_beside (found bytes : List UInt8) :
    Folder.write (.ofFiles [("a.asm", found)]) ⟨"a.bin", bytes⟩ =
      .ok ⟨[(["a.bin"], bytes), (["a.asm"], found)]⟩ := by
  have hnames : namesOf "a.bin" = ["a.bin"] := by decide +kernel
  have hother : namesOf "a.asm" = ["a.asm"] := by decide +kernel
  have hpath : Folder.needPath "a.bin" = .ok () := by decide +kernel
  have hname : Folder.needName "a.bin" = .ok () := by decide +kernel
  have hbeside : ¬["a.bin"] <:+ ["a.asm"] := by decide
  simp [write, ofFiles, hnames, hother, hpath, hname, hbeside, Except.ok_bind, follow,
    needDirectory, isDirectory]

end Tool

end WordMachine
