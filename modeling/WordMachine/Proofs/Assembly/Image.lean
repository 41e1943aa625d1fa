import Mathlib.Order.MinMax
import WordMachine.Assembly.Listing
import WordMachine.Proofs.Assembly.Changes

/-!
# The image of an assembly

Behind changes, memory shows the last one at each address (`Memory.read_writeChanges`). So it does
not show any more what it held before where a change is written (`Memory.read_writeChanges_of_mem`),
and nowhere else does it show anything of the changes (`Memory.read_writeChanges_of_forall_ne`).

The image of an assembly ends behind the highest address that a change is written to
(`Assembly.lt_imageEnd_iff`), and holds up to there what the memory of the assembly does
(`Assembly.getElem?_image`): the words that are written, and zero in the gaps between them
(`Assembly.IsGap`).
-/

namespace WordMachine

/-! ## Reading where changes are written -/

namespace Memory

variable {m m' : Memory} {cs : List Change} {x : Word}

/-- Behind changes the value of the last one at an address is read there, and what was there before
    if there is none. -/
theorem read_writeChanges :
    (m.writeChanges cs).read x =
      ((cs.reverse.find? (·.address = x)).map Change.value).getD (m.read x) := by
  induction cs generalizing m with
  | nil => rfl
  | cons c cs ih =>
    rw [writeChanges_cons, ih, List.reverse_cons, List.find?_append, Option.map_or, Option.getD_or,
      read_write, List.find?_singleton]
    by_cases hx : c.address = x
    · simp [hx]
    · simp [hx, Ne.symm hx]

theorem read_writeChanges_of_forall_ne (h : ∀ c ∈ cs, c.address ≠ x) :
    (m.writeChanges cs).read x = m.read x := by
  have hnone : cs.reverse.find? (·.address = x) = none := List.find?_eq_none.2 (by simpa using h)
  rw [read_writeChanges, hnone]
  rfl

/-- What was in memory before does not show where a change is written. -/
theorem read_writeChanges_of_mem (h : ∃ c ∈ cs, c.address = x) :
    (m.writeChanges cs).read x = (m'.writeChanges cs).read x := by
  have hsome : (cs.reverse.find? (·.address = x)).isSome := List.find?_isSome.2 (by simpa using h)
  obtain ⟨c, hc⟩ := Option.isSome_iff_exists.1 hsome
  rw [read_writeChanges, read_writeChanges, hc]
  rfl

/-- Where no address has two changes, what is read at it is the value of its change. -/
theorem read_writeChanges_of_nodup (h : (cs.map Change.address).Nodup) {c : Change} (hc : c ∈ cs) :
    (m.writeChanges cs).read c.address = c.value := by
  induction cs generalizing m with
  | nil => exact absurd hc List.not_mem_nil
  | cons d cs ih =>
    rw [List.map_cons, List.nodup_cons] at h
    obtain ⟨hd, hcs⟩ := h
    rcases List.mem_cons.1 hc with rfl | hc
    · have hlater : ∀ d ∈ cs, d.address ≠ c.address := fun d hmem heq =>
        hd (heq ▸ List.mem_map_of_mem hmem)
      rw [writeChanges_cons, read_writeChanges_of_forall_ne hlater, read_write, if_pos rfl]
    · exact ih hcs hc

end Memory

/-! ## The end of an image -/

theorem lt_foldl_max_iff {n b : Nat} {ks : List Nat} :
    n < ks.foldl max b ↔ n < b ∨ ∃ k ∈ ks, n < k := by
  induction ks generalizing b with
  | nil => simp
  | cons k ks ih =>
    rw [List.foldl_cons, ih, lt_max_iff, or_assoc]
    simp only [List.mem_cons, exists_eq_or_imp]

namespace Assembly

variable {a : Assembly} {x : Word}

/-- A line writes a word at the address. -/
def IsWritten (a : Assembly) (x : Word) : Prop := ∃ c ∈ a.changes, c.address = x

/-- No line writes a word at the address, but one does so at a higher address. -/
def IsGap (a : Assembly) (x : Word) : Prop := ¬a.IsWritten x ∧ ∃ y, x < y ∧ a.IsWritten y

/-- Below the end of the image are the addresses with a written one at them or above. -/
theorem lt_imageEnd_iff {n : Nat} : n < a.imageEnd ↔ ∃ y, n ≤ y.toNat ∧ a.IsWritten y := by
  rw [imageEnd, lt_foldl_max_iff]
  simp only [List.mem_map, Nat.not_lt_zero, false_or]
  constructor
  · rintro ⟨_, ⟨c, hc, rfl⟩, hlt⟩
    exact ⟨c.address, Nat.le_of_lt_succ hlt, c, hc, rfl⟩
  · rintro ⟨_, hle, c, hc, rfl⟩
    exact ⟨_, ⟨c, hc, rfl⟩, Nat.lt_succ_of_le hle⟩

theorem imageEnd_le (a : Assembly) : a.imageEnd ≤ 0x10000 := by
  by_contra hfar
  obtain ⟨y, hle, -⟩ := lt_imageEnd_iff.1 (Nat.not_le.1 hfar)
  exact absurd y.isLt (by omega)

/-- An address below the end of the image is written or a gap. -/
theorem isGap_iff : a.IsGap x ↔ ¬a.IsWritten x ∧ x.toNat < a.imageEnd := by
  rw [IsGap, lt_imageEnd_iff]
  refine and_congr_right fun hx => ⟨?_, ?_⟩
  · rintro ⟨y, hlt, hy⟩
    exact ⟨y, Nat.le_of_lt hlt, hy⟩
  · rintro ⟨y, hle, hy⟩
    refine ⟨y, Nat.lt_of_le_of_ne hle fun heq => hx ?_, hy⟩
    rwa [BitVec.toNat_inj.1 heq]

theorem IsWritten.lt_imageEnd (h : a.IsWritten x) : x.toNat < a.imageEnd :=
  lt_imageEnd_iff.2 ⟨x, Nat.le_refl _, h⟩

/-- The image from an address on holds what the memory does. -/
theorem getElem?_image (a : Assembly) (start : Word) (k : Nat) :
    (a.image start)[k]? =
      if start.toNat + k < a.imageEnd then some (a.memory.read (start + BitVec.ofNat 16 k))
      else none := by
  have hend := a.imageEnd_le
  have hroom : (k < a.imageEnd - start.toNat ∧ start.toNat + k < 0x10000) ↔
      start.toNat + k < a.imageEnd := by omega
  rw [image, Memory.getElem?_slice]
  simp only [hroom]

/-! ## Assemblies -/

variable {source : String}

/-- Where no line writes a word, the memory of an assembly is zero. -/
theorem read_of_not_isWritten (h : assemble source = .ok a) (hx : ¬a.IsWritten x) :
    a.memory.read x = 0 := by
  have hnone : ∀ c ∈ a.changes, c.address ≠ x := fun c hc heq => hx ⟨c, hc, heq⟩
  rw [memory_eq_writeChanges h, Memory.read_writeChanges_of_forall_ne hnone, Memory.read_filled]

/-- The changes of an assembly, written over any memory, show where they are written what the
    memory of the assembly does. -/
theorem read_writeChanges_of_isWritten (h : assemble source = .ok a) (hx : a.IsWritten x)
    (m : Memory) : (m.writeChanges a.changes).read x = a.memory.read x := by
  rw [memory_eq_writeChanges h]
  exact Memory.read_writeChanges_of_mem hx

end Assembly

end WordMachine
