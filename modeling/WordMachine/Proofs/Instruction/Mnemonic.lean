import Mathlib.Tactic.Common
import WordMachine.Instruction.Mnemonic

/-!
# The table of mnemonics

A token is a mnemonic if, in capitals, it is a name of the table, and names tell the mnemonics
apart (`find?_eq_some_iff`).
-/

namespace WordMachine.Mnemonic

variable {token : String} {m : Mnemonic}

theorem upper_name : ∀ m ∈ table, Text.upper m.name.toList = m.name.toList := by decide +kernel

/-- Every mnemonic of the table is found by its name. -/
theorem find?_name : ∀ m ∈ table, find? m.name = some m := by decide +kernel

/-- The mnemonic that a token is, is the one of the table with the name that the token has in
    capitals. -/
theorem find?_eq_some_iff :
    find? token = some m ↔ m ∈ table ∧ Text.upper token.toList = m.name.toList := by
  constructor
  · intro h
    rw [find?] at h
    have hname : m.name.toList = Text.upper token.toList := by simpa using List.find?_some h
    exact ⟨List.mem_of_find?_eq_some h, hname.symm⟩
  · rintro ⟨hm, hname⟩
    have hfound := find?_name m hm
    rw [find?, upper_name m hm] at hfound
    rw [find?, hname]
    exact hfound

end WordMachine.Mnemonic
