import WordMachine.Instruction.Printer

/-!
# Images

An image is words as they lie in memory from some address on. Its file is the
bytes of the words, one after another; `Image.ofBytes` reads a part of a file,
counted in words, and `bytesOfWords` writes one. The text of a range of
addresses (`Image.rangeText`) has a line for each, which says what the word there
says, or that there is none.
-/

namespace WordMachine

/-- The bytes of words, one after another. -/
def bytesOfWords (ws : List Word) : List UInt8 := ws.flatMap Word.bytes

/-- The words that bytes are, two by two. An odd byte at the end is the low one of
    a word. -/
def wordsOfBytes : List UInt8 → List Word
  | low :: high :: rest => Word.ofBytes low high :: wordsOfBytes rest
  | [low] => [Word.ofBytes low 0]
  | [] => []

/-- Words in memory, from an address on. -/
structure Image where
  base : Word
  words : Array Word
deriving DecidableEq, Repr

/-- Why a part of a file is no image at an address. -/
inductive ImageFault where
  | oddLength
  | skipTooLong
  | partTooLong
  | noRoom (base : Word)
deriving DecidableEq, Repr

/-- The words for why a part of the file `path` is no image. -/
def ImageFault.message (path : String) : ImageFault → String
  | oddLength => s!"{path} has an odd byte count"
  | skipTooLong => "--skip exceeds file size"
  | partTooLong => "--len exceeds remaining file size after skip"
  | noRoom base => "image does not fit above " ++ Numeral.hexLiteral base.toNat

namespace Image

/-- The image at `base` of a file without its first `skip` words, and if `length`
    is given, only of so many words after these. -/
def ofBytes (bytes : List UInt8) (base : Word) (skip : Nat) (length : Option Nat) :
    Except ImageFault Image :=
  let words := wordsOfBytes bytes
  let rest := words.drop skip
  let part := (length.map rest.take).getD rest
  if bytes.length % 2 ≠ 0 then .error .oddLength
  else if words.length < skip then .error .skipTooLong
  else if rest.length < length.getD 0 then .error .partTooLong
  else if 0x10000 - base.toNat < part.length then .error (.noRoom base)
  else .ok ⟨base, part.toArray⟩

/-- One past the last address of the image, and at most one past the last address. -/
def stop (image : Image) : Nat := min (image.base.toNat + image.words.size) 0x10000

/-- The word of the image at an address, if it has one there. -/
def read? (image : Image) (a : Word) : Option Word :=
  if image.base ≤ a then image.words[a.toNat - image.base.toNat]? else none

/-- The line for an address. -/
def lineText (image : Image) (showWords : Bool) (address : Nat) : String :=
  let place := Numeral.hexLiteral address
  match image.read? (BitVec.ofNat 16 address) with
  | none => place ++ ": <unmapped>\n"
  | some w =>
    let text := disassemble w
    if showWords then
      let word := Numeral.hex 4 w.toNat
      s!"{place}: {word}  {text}\n"
    else s!"{place}: {text}\n"

/-- The lines for the addresses from `start` up to but not including `stop`. -/
def rangeText (image : Image) (start stop : Nat) (showWords : Bool) : String :=
  String.join ((List.range (stop - start)).map fun i => image.lineText showWords (start + i))

end Image

end WordMachine
