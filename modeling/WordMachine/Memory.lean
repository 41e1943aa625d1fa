import WordMachine.Word

/-!
# Memory

The memory of the machine has one word at every address, so that no address is
out of range. Words can be written one at a time (`Memory.write`), or many from
an address on; what would then lie past the last address is dropped
(`Memory.load`), or else the whole writing is refused (`Memory.copyIn?`).
-/

namespace WordMachine

/-- One word at every address. -/
structure Memory where
  cells : Vector Word 0x10000

/-- A word to be written at an address. -/
structure Change where
  address : Word
  value : Word
deriving DecidableEq, Repr

namespace Memory

/-- The memory that holds one word everywhere. -/
def filled (w : Word) : Memory := ⟨Vector.replicate 0x10000 w⟩

/-- The word at an address. -/
def read (m : Memory) (a : Word) : Word := m.cells.get ⟨a.toNat, a.isLt⟩

/-- The memory with another word at an address. -/
def write (m : Memory) (a w : Word) : Memory := ⟨m.cells.set a.toNat w a.isLt⟩

/-- The memory with words written one after another, the first at the position
    `start`, as far as there are addresses for them. -/
def writeFrom (m : Memory) (start : Nat) : List Word → Memory
  | [] => m
  | w :: ws =>
    if h : start < 0x10000 then writeFrom ⟨m.cells.set start w h⟩ (start + 1) ws else m

/-- The memory with words written from an address on, and how many of them there
    was room for. -/
def load (m : Memory) (a : Word) (ws : List Word) : Memory × Nat :=
  (m.writeFrom a.toNat ws, min ws.length (0x10000 - a.toNat))

/-- The memory with words written from the position `start` on, if they all lie
    in memory. Even no words at all have to start at its end at the latest. -/
def copyIn? (m : Memory) (start : Nat) (ws : List Word) : Option Memory :=
  if start + ws.length ≤ 0x10000 then some (m.writeFrom start ws) else none

/-- At most `length` words, from an address on to the end of memory. -/
def slice (m : Memory) (a : Word) (length : Nat) : List Word :=
  (m.cells.toArray.extract a.toNat (a.toNat + length)).toList

/-- The number of addresses whose word is not zero. -/
def nonzeroWords (m : Memory) : Nat := m.cells.toArray.countP (· != 0)

end Memory

end WordMachine
