/-!
# Words

The machine knows one size of datum, the *word* of sixteen bits, and a word is
also how it names an address. In a file a word takes two bytes, the low one
first (`Word.bytes`); `Word.ofBytes` joins them again.
-/

namespace WordMachine

/-- A datum of the machine, or an address in its memory. -/
abbrev Word := BitVec 16

namespace Word

/-- The word with the given low and high byte. -/
def ofBytes (low high : UInt8) : Word := high.toBitVec ++ low.toBitVec

/-- The two bytes of a word in a file, the low one first. -/
def bytes (w : Word) : List UInt8 :=
  [UInt8.ofBitVec (w.setWidth 8), UInt8.ofBitVec ((w >>> 8).setWidth 8)]

end Word

end WordMachine
