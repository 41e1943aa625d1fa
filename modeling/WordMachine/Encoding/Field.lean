import WordMachine.Word

/-!
# Fields of an instruction word

An instruction word starts, at its high end, with an *opcode* of one to sixteen
bits that tells its family; the bits below are cut into *fields*. A field holds
either an unsigned value or, read with the sign in its top bit, a signed one.

`Field.put` and `Field.get` write and read a field, `Opcode.word` and
`Opcode.leads` write and test an opcode.
-/

namespace WordMachine

/-- Adjacent bits of a word: `width` of them, the lowest at position `lsb`. -/
structure Field where
  lsb : Nat
  width : Nat
deriving DecidableEq, Repr

namespace Field

variable (f : Field)

/-- The largest value of the field: `width` ones. -/
def mask : Word := BitVec.ofNat 16 (Nat.pow 2 f.width - 1)

/-- The value that the field has in a word. -/
def get (w : Word) : Word := (w >>> f.lsb) &&& f.mask

/-- The value that the field has in a word, its top bit taken as the sign: the
    field is moved to the top of a word and back with copies of that bit. -/
def getSigned (w : Word) : Int :=
  ((f.get w <<< (16 - f.width)).sshiftRight (16 - f.width)).toInt

/-- The word that has the low bits of `value` in the field and zeros elsewhere. -/
def put (value : Word) : Word := (value &&& f.mask) <<< f.lsb

/-- The largest unsigned value of the field. -/
def maxUnsigned : Int := f.mask.toNat

/-- The least signed value of the field. -/
def minSigned : Int := -(Nat.pow 2 (f.width - 1) : Int)

/-- The largest signed value of the field. -/
def maxSigned : Int := (Nat.pow 2 (f.width - 1) : Int) - 1

end Field

/-- The leading `length` bits of an instruction word. -/
structure Opcode where
  length : Nat
  bits : Word
deriving DecidableEq, Repr

namespace Opcode

variable (o : Opcode)

/-- The word that starts with the opcode and has zeros below it. -/
def word : Word := o.bits <<< (16 - o.length)

/-- Whether a word starts with the opcode. -/
def leads (w : Word) : Bool := w >>> (16 - o.length) == o.bits

end Opcode

end WordMachine
