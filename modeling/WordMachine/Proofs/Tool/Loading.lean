import WordMachine.Proofs.Assembly.Image
import WordMachine.Proofs.Assembly.Rows
import WordMachine.Proofs.Image
import WordMachine.Proofs.Machine.Loading
import WordMachine.Tool.Assemble

/-!
# Loading a source or its image

A program can be run from its source, which is assembled and whose changes are written over a new
machine, or from the file that an image of it was written to, which is read back and laid over a
new machine from the first address on. A new machine has the word that stops it everywhere. The
changes leave this word in the gaps between them, and the image has zeros there, so that the two
machines differ in the gaps and nowhere else (`loadsTo_source_and_image`).
-/

namespace WordMachine

/-! ## What is read on either way -/

section Reading

variable {source : String} {a : Assembly} {x : Word} (settings : Settings)

/-- Changes that are loaded leave the stop word wherever none is written. -/
theorem read_loadChanges_of_assemble (h : assemble source = .ok a) :
    (a.IsWritten x → ((Machine.start settings).loadChanges a.changes).memory.read x =
      a.memory.read x) ∧
    (¬a.IsWritten x → ((Machine.start settings).loadChanges a.changes).memory.read x =
      Machine.stopWord) := by
  rw [Machine.memory_loadChanges]
  refine ⟨fun hx => Assembly.read_writeChanges_of_isWritten h hx _, fun hx => ?_⟩
  rw [Memory.read_writeChanges_of_forall_ne fun c hc heq => hx ⟨c, hc, heq⟩, Machine.read_start]

/-- An image that is loaded leaves the stop word only behind its end. -/
theorem read_loadImage_of_assembly (a : Assembly) :
    ((Machine.start settings).loadImage (a.image 0)).memory.read x =
      if x.toNat < a.imageEnd then a.memory.read x else Machine.stopWord := by
  have hplace : (0 : Word).toNat + x.toNat = x.toNat := Nat.zero_add x.toNat
  have haddress : (0 : Word) + BitVec.ofNat 16 x.toNat = x := by
    rw [BitVec.ofNat_toNat, BitVec.setWidth_eq]
    exact BitVec.zero_add x
  rw [Machine.read_loadImage, Assembly.getElem?_image, hplace, haddress, Machine.read_start]
  split <;> rfl

end Reading

namespace Tool

/-! ## Files that are written and read -/

/-- What a new machine becomes when the program in the file `path` is loaded. -/
def LoadsTo (files : Files) (path : String) (settings : Settings) (m : Machine) : Prop :=
  ∃ program, readProgram files path = .ok program ∧
    loadProgram path (Machine.start settings) program = .ok m

variable {source : String} {a : Assembly} {files : Files} {path : String} (settings : Settings)

theorem loadsTo_source (h : assemble source = .ok a) (hsuccess : a.success = true)
    (hpath : isSource path = true) (htext : files.text path = .ok source) :
    LoadsTo files path settings ((Machine.start settings).loadChanges a.changes) := by
  refine ⟨.source source, ?_, ?_⟩
  · rw [readProgram, if_pos hpath, htext]
    rfl
  · rw [loadProgram, h]
    exact if_pos hsuccess

/-- A file of words is read as these words. -/
theorem loadsTo_image (ws : List Word) (hpath : isSource path = false)
    (hbytes : files path = .ok (bytesOfWords ws)) :
    LoadsTo files path settings ((Machine.start settings).loadImage ws) := by
  refine ⟨.image ws, ?_, rfl⟩
  rw [readProgram, hpath, hbytes]
  exact congrArg (fun ws => Except.ok (Program.image ws)) (wordsOfBytes_bytesOfWords ws)

/-- The tool that assembles a source reports on its assembly. -/
theorem AssembleOptions.perform_of_assemble {o : AssembleOptions} (h : assemble source = .ok a)
    (htext : files.text o.source = .ok source) : o.perform files = .ok (o.reportOf a) := by
  rw [perform, htext]
  simp only [Except.mapError, Except.ok_bind, h]
  rfl

/-- The tool that assembles a source without faults writes the image at last. -/
theorem AssembleOptions.perform_of_success {o : AssembleOptions} (h : assemble source = .ok a)
    (hsuccess : a.success = true) (htext : files.text o.source = .ok source) :
    ∃ r, o.perform files = .ok r ∧ r.failure = none ∧
      r.writings.getLast? = some ⟨o.image, bytesOfWords (a.image o.start)⟩ := by
  refine ⟨o.reportOf a, perform_of_assemble h htext, ?_, ?_⟩
  · simp only [reportOf, if_pos hsuccess]
  · simp only [reportOf, if_pos hsuccess, List.getLast?_append, List.getLast?_singleton,
      Option.some_or]

/-- A source without faults, run as it is, and the image that is assembled of it from the first
    address on, run from its file, start from the same memory but for the gaps: an address that no
    line writes a word to, below one that a line does. There the source leaves the word that stops
    the machine, and the image has a zero, which is an instruction like any other. -/
theorem loadsTo_source_and_image (h : assemble source = .ok a) (hsuccess : a.success = true)
    (settings settings' : Settings) :
    ∃ (direct loaded : Machine) (bytes : List UInt8),
      (∀ (files : Files) (path : String), isSource path = true → files.text path = .ok source →
        LoadsTo files path settings direct) ∧
      (∀ (files : Files) (o : AssembleOptions), files.text o.source = .ok source → o.start = 0 →
        ∃ r, o.perform files = .ok r ∧ r.failure = none ∧
          r.writings.getLast? = some ⟨o.image, bytes⟩) ∧
      (∀ (files : Files) (path : String), isSource path = false → files path = .ok bytes →
        LoadsTo files path settings' loaded) ∧
      (∀ x, ¬a.IsGap x → direct.memory.read x = loaded.memory.read x) ∧
      (∀ x, a.IsGap x →
        (direct.memory.read x = 0xFFFF ∧ Instruction.decode 0xFFFF = .halt) ∧
        (loaded.memory.read x = 0 ∧ Instruction.decode 0 = .loadImmediate 0)) := by
  refine ⟨_, _, bytesOfWords (a.image 0), fun files path => loadsTo_source settings h hsuccess,
    fun files o htext hstart => ?_, fun files path => loadsTo_image settings' (a.image 0),
    fun x hx => ?_, fun x hx => ?_⟩
  · rw [← hstart]
    exact o.perform_of_success h hsuccess htext
  · obtain ⟨hwritten, hunwritten⟩ := read_loadChanges_of_assemble (x := x) settings h
    rw [read_loadImage_of_assembly]
    by_cases hword : a.IsWritten x
    · rw [hwritten hword, if_pos hword.lt_imageEnd]
    · -- What is neither written nor a gap is behind the end of the image.
      rw [hunwritten hword, if_neg fun hlt => hx (Assembly.isGap_iff.2 ⟨hword, hlt⟩)]
  · obtain ⟨hword, hlt⟩ := Assembly.isGap_iff.1 hx
    obtain ⟨-, hunwritten⟩ := read_loadChanges_of_assemble (x := x) settings h
    rw [read_loadImage_of_assembly, if_pos hlt, Assembly.read_of_not_isWritten h hword]
    exact ⟨⟨hunwritten hword, by decide⟩, rfl, by decide⟩

/-- Data behind a gap, of which the last word is written over. -/
theorem loadsTo_source_and_image_overlap :
    ∃ a, assemble ".org 3\n.word 1, 2\n.org 4\n.word 9" = .ok a ∧ a.success = true ∧
      a.IsGap 2 ∧ ¬a.IsGap 4 ∧ ∃ direct loaded : Machine,
        (direct.memory.read 2 = 0xFFFF ∧ loaded.memory.read 2 = 0) ∧
        direct.memory.read 4 = loaded.memory.read 4 := by
  obtain ⟨a, ha⟩ := exists_assemble ".org 3\n.word 1, 2\n.org 4\n.word 9" (by decide +kernel)
  have hlisting := listing_of_assemble ha
  have hchanges : a.changes = [⟨3, 1⟩, ⟨4, 2⟩, ⟨4, 9⟩] := by
    rw [Assembly.changes, hlisting]
    decide +kernel
  have hsuccess : a.success = true := by
    rw [Assembly.success, Assembly.faults_eq_filterMap ha, hlisting]
    decide +kernel
  have hgap : a.IsGap 2 := by
    refine ⟨?_, 3, by decide, ⟨3, 1⟩, by simp [hchanges], rfl⟩
    rw [Assembly.IsWritten, hchanges]
    decide
  have hwritten : a.IsWritten 4 := ⟨⟨4, 9⟩, by simp [hchanges], rfl⟩
  have hfull : ¬a.IsGap 4 := fun h => h.1 hwritten
  obtain ⟨direct, loaded, -, -, -, -, hsame, hgaps⟩ :=
    loadsTo_source_and_image ha hsuccess {} {}
  obtain ⟨⟨hdirect, -⟩, hloaded, -⟩ := hgaps 2 hgap
  exact ⟨a, ha, hsuccess, hgap, hfull, direct, loaded, ⟨hdirect, hloaded⟩, hsame 4 hfull⟩

end Tool

end WordMachine
