import Mathlib.Tactic.Common
import WordMachine.Machine.Cpu

/-!
# Registers of the processor

A register holds what was put into it last, and putting a word into one register changes nothing
else in the processor.
-/

namespace WordMachine.Cpu

variable (cpu : Cpu) (r s : Register) (w : Word)

/-- A register has the word that was put into it, and every other what it had before. -/
theorem get_set : (cpu.set r w).get s = if s = r then w else cpu.get s := by
  have hindex : ∀ (registers : Vector Word 16) (t : Register),
      registers.get t.index = registers[t.index.val] := fun _ _ => rfl
  have hsame : r.index.val = s.index.val ↔ s = r := by
    obtain ⟨i⟩ := r
    obtain ⟨j⟩ := s
    rw [Register.mk.injEq, Fin.ext_iff, eq_comm]
  simp only [get, set, hindex, Vector.getElem_set, hsame]

@[simp] theorem get_set_self : (cpu.set r w).get r = w := by
  rw [get_set, if_pos rfl]

variable {r s} in
theorem get_set_of_ne (h : s ≠ r) : (cpu.set r w).get s = cpu.get s := by
  rw [get_set, if_neg h]

@[simp] theorem status_set : (cpu.set r w).status = cpu.status := rfl

@[simp] theorem segments_set : (cpu.set r w).segments = cpu.segments := rfl

@[simp] theorem shadow_set : (cpu.set r w).shadow = cpu.shadow := rfl

@[simp] theorem running_set : (cpu.set r w).running = cpu.running := rfl

@[simp] theorem settings_set : (cpu.set r w).settings = cpu.settings := rfl

@[simp] theorem pc_setPc : (cpu.setPc w).pc = w := get_set_self cpu .pc w

end WordMachine.Cpu
