import WordMachine.Machine.Basic
import WordMachine.Proofs.Assembly.Image

/-!
# Loading words

Words are loaded into memory in three ways: from an address on, from the first address on, and one
at a time as changes. The first leaves out the words for which there is no room
(`Memory.load_take`). All others are read back at their addresses (`Memory.read_load_add`), nothing
else changes (`Memory.read_load_of_forall_ne`), and a slice of memory shows them again
(`Memory.slice_load`). An image is loaded in the same way at the first address
(`Machine.loadImage_eq_loadWords`), and so are changes at addresses that follow one another
(`Memory.writeChanges_load`).
-/

namespace WordMachine

namespace Memory

variable (m : Memory) (a : Word) (ws : List Word)

/-! ## Words for which there is room -/

/-- There is an address for every word that is loaded. -/
theorem add_load_le : a.toNat + (m.load a ws).2 ≤ 0x10000 := by
  have ha : a.toNat < 0x10000 := a.isLt
  have hroom : (m.load a ws).2 ≤ 0x10000 - a.toNat := Nat.min_le_right _ _
  omega

theorem length_take_load : (ws.take (m.load a ws).2).length = (m.load a ws).2 := by
  rw [List.length_take]
  exact Nat.min_eq_left (Nat.min_le_left _ _)

/-- Words for which there is no room can as well be left out. -/
theorem load_take {n : Nat} (h : (m.load a ws).2 ≤ n) :
    (m.load a (ws.take n)).1 = (m.load a ws).1 := by
  have hn : min ws.length (0x10000 - a.toNat) ≤ n := h
  refine ext_read fun x => ?_
  have hx : x.toNat < 0x10000 := x.isLt
  rw [load, load, read_writeFrom, read_writeFrom]
  split
  · rw [List.getElem?_take]
    split
    · rfl
    · rw [List.getElem?_eq_none (by omega)]
  · rfl

theorem load_singleton (w : Word) : (m.load a [w]).1 = m.write a w := by
  rw [load, writeFrom_cons _ _ _ _ a.isLt, BitVec.ofNat_toNat, BitVec.setWidth_eq]
  rfl

/-! ## Reading what was loaded -/

section Reading

variable {m a ws}

theorem read_load_add {j : Nat} (h : j < (m.load a ws).2) :
    ws[j]? = some ((m.load a ws).1.read (a + BitVec.ofNat 16 j)) := by
  obtain ⟨hlength, hroom⟩ := Nat.lt_min.1 h
  rw [load, read_writeFrom, toNat_add_ofNat_of_lt (by omega), if_pos (Nat.le_add_right _ _),
    Nat.add_sub_cancel_left, List.getElem?_eq_getElem hlength]
  rfl

theorem read_load_of_forall_ne {x : Word} (h : ∀ j < (m.load a ws).2, x ≠ a + BitVec.ofNat 16 j) :
    (m.load a ws).1.read x = m.read x := by
  have hx : x.toNat < 0x10000 := x.isLt
  rw [load, read_writeFrom]
  split
  · next hle =>
    -- An address behind the first word is behind all words, as it is that of none.
    have hend : ws.length ≤ x.toNat - a.toNat := by
      by_contra hlt
      have hj : x.toNat - a.toNat < (m.load a ws).2 := Nat.lt_min.2 ⟨by omega, by omega⟩
      refine h _ hj (BitVec.eq_of_toNat_eq ?_)
      rw [toNat_add_ofNat_of_lt (by omega), Nat.add_sub_cancel' hle]
    rw [List.getElem?_eq_none hend]
    rfl
  · rfl

end Reading

/-- A slice is what is read from its first address on, up to its length or the end of memory. -/
theorem slice_eq_map_read (length : Nat) :
    m.slice a length = (List.range (min (a.toNat + length) 0x10000 - a.toNat)).map
      fun k => m.read (a + BitVec.ofNat 16 k) := by
  refine List.ext_getElem? fun k => ?_
  rw [getElem?_slice, List.getElem?_map]
  by_cases hk : k < length ∧ a.toNat + k < 0x10000
  · rw [if_pos hk, List.getElem?_range (by omega)]
    rfl
  · rw [if_neg hk, List.getElem?_eq_none (by rw [List.length_range]; omega)]
    rfl

/-- A slice of the words that are loaded is these words. -/
theorem slice_load : (m.load a ws).1.slice a (m.load a ws).2 = ws.take (m.load a ws).2 := by
  have hlength := length_take_load m a ws
  have hslice := slice_writeFrom m a (ws.take (m.load a ws).2) (hlength.symm ▸ add_load_le m a ws)
  rw [hlength] at hslice
  rw [← load_take m a ws (Nat.le_refl _)]
  exact hslice

/-- The words that are loaded, each as a change at its address, make the same memory. -/
theorem writeChanges_load :
    m.writeChanges ((ws.take (m.load a ws).2).zipIdx.map fun (w, j) => ⟨a + BitVec.ofNat 16 j, w⟩) =
      (m.load a ws).1 := by
  have hlength := length_take_load m a ws
  have hroom := add_load_le m a ws
  rw [writeChanges_zipIdx _ _ _ _ (by omega), ← load_take m a ws (Nat.le_refl _)]
  rfl

end Memory

namespace Machine

variable (m : Machine) (a x : Word) (ws : List Word)

/-! ## Machines that are loaded -/

theorem memory_loadChanges (changes : List Change) :
    (m.loadChanges changes).memory = m.memory.writeChanges changes := by
  simp only [loadChanges, Memory.load_singleton, Memory.writeChanges]

/-- An image is loaded like other words. What it leaves out beforehand, there is no room for. -/
theorem loadImage_eq_loadWords : m.loadImage ws = (m.loadWords 0 ws).1 := by
  have hroom : (m.memory.load 0 ws).2 ≤ 0x10000 := Nat.le_of_add_left_le (m.memory.add_load_le 0 ws)
  rw [loadImage, Memory.load_take _ _ _ hroom]
  rfl

/-- Behind an image, memory holds what it did before. -/
theorem read_loadImage :
    (m.loadImage ws).memory.read x = (ws[x.toNat]?).getD (m.memory.read x) := by
  have hstart : (0 : Word).toNat ≤ x.toNat := Nat.zero_le x.toNat
  rw [loadImage_eq_loadWords, loadWords, Memory.load, Memory.read_writeFrom, if_pos hstart]
  rfl

@[simp] theorem read_start (settings : Settings) :
    (start settings).memory.read x = stopWord := Memory.read_filled x stopWord

/-- Of words that are loaded from an address on, as many as there are addresses for are read back,
    one behind the other, and everywhere else memory is as it was. A slice is a list of such reads
    that stops at the end of memory, so that it shows the words that were loaded. The other ways of
    loading are this one: an image is loaded at the first address, and the words that there is room
    for can be loaded as changes. Of any changes, the last at an address is read there. -/
theorem loaded_words_read_back :
    (m.memory.load a ws).2 = min ws.length (0x10000 - a.toNat) ∧
    (∀ j < (m.memory.load a ws).2,
      ws[j]? = some ((m.memory.load a ws).1.read (a + BitVec.ofNat 16 j))) ∧
    (∀ x, (∀ j < (m.memory.load a ws).2, x ≠ a + BitVec.ofNat 16 j) →
      (m.memory.load a ws).1.read x = m.memory.read x) ∧
    (∀ (memory : Memory) (length : Nat), memory.slice a length =
      (List.range (min (a.toNat + length) 0x10000 - a.toNat)).map
        fun k => memory.read (a + BitVec.ofNat 16 k)) ∧
    (m.memory.load a ws).1.slice a (m.memory.load a ws).2 = ws.take (m.memory.load a ws).2 ∧
    m.loadWords a ws = ({ m with memory := (m.memory.load a ws).1 }, (m.memory.load a ws).2) ∧
    m.loadImage ws = (m.loadWords 0 ws).1 ∧
    m.loadChanges ((ws.take (m.memory.load a ws).2).zipIdx.map
      fun (w, j) => ⟨a + BitVec.ofNat 16 j, w⟩) = (m.loadWords a ws).1 ∧
    (∀ changes : List Change, (m.loadChanges changes).cpu = m.cpu ∧
      ∀ x, (m.loadChanges changes).memory.read x =
        ((changes.reverse.find? (·.address = x)).map Change.value).getD (m.memory.read x)) := by
  refine ⟨rfl, fun j => Memory.read_load_add, fun x => Memory.read_load_of_forall_ne,
    fun memory => memory.slice_eq_map_read a, m.memory.slice_load a ws, rfl,
    m.loadImage_eq_loadWords ws, ?_, fun changes => ⟨rfl, fun x => ?_⟩⟩
  · have hmemory := m.memory.writeChanges_load a ws
    rw [← memory_loadChanges] at hmemory
    exact congrArg (Machine.mk m.cpu) hmemory
  · rw [memory_loadChanges, Memory.read_writeChanges]

/-- Three words at the last two addresses, of which there is room for two. -/
theorem loaded_words_read_back_last :
    ((start {}).memory.load 0xFFFE [1, 2, 3]).2 = 2 ∧
      ((start {}).memory.load 0xFFFE [1, 2, 3]).1.read 0xFFFF = 2 ∧
      ((start {}).memory.load 0xFFFE [1, 2, 3]).1.read 0 = 0xFFFF ∧
      ((start {}).memory.load 0xFFFE [1, 2, 3]).1.slice 0xFFFE 2 = [1, 2] := by
  obtain ⟨-, hread, hbeside, -, hslice, -⟩ := (start {}).loaded_words_read_back 0xFFFE [1, 2, 3]
  have htwo : ((start {}).memory.load 0xFFFE [1, 2, 3]).2 = 2 := rfl
  rw [htwo] at hread hbeside hslice
  refine ⟨htwo, (Option.some.inj (hread 1 (by decide))).symm, ?_, hslice⟩
  rw [hbeside 0 (by decide)]
  exact read_start 0 {}

end Machine

end WordMachine
