import Mathlib.Tactic.Common
import WordMachine.Image

/-!
# Words in files

A file of words holds two bytes for each, and joining these again gives the words
(`wordsOfBytes_bytesOfWords`). So the file of words for which there is room behind an address is
an image there, of these words (`Image.ofBytes_bytesOfWords`). The other way round, any file of an
even length is that of its words (`bytesOfWords_wordsOfBytes`), and a part of it is an image at an
address wherever it lies in the file and there is room for it (`Image.ofBytes_eq_ok_iff`). The image
then holds the bytes of that part, and has words at as many addresses (`Image.IsWindow`).
-/

namespace WordMachine

/-! ## Words and their bytes -/

/-- The two bytes of a word, joined again, are the word. -/
theorem Word.ofBytes_bytes (w : Word) :
    ofBytes (UInt8.ofBitVec (w.setWidth 8)) (UInt8.ofBitVec ((w >>> 8).setWidth 8)) = w := by
  ext i hi
  rw [ofBytes, BitVec.getElem_append]
  split
  · simp [BitVec.getLsbD_eq_getElem hi]
  · next hhigh =>
    have hindex : 8 + (i - 8) = i := by omega
    simp [hindex, BitVec.getLsbD_eq_getElem hi]

theorem wordsOfBytes_bytesOfWords (ws : List Word) : wordsOfBytes (bytesOfWords ws) = ws := by
  induction ws with
  | nil => rfl
  | cons w ws ih =>
    have hbytes : bytesOfWords (w :: ws) =
        UInt8.ofBitVec (w.setWidth 8) :: UInt8.ofBitVec ((w >>> 8).setWidth 8) ::
          bytesOfWords ws := rfl
    rw [hbytes, wordsOfBytes, Word.ofBytes_bytes, ih]

theorem length_bytesOfWords (ws : List Word) : (bytesOfWords ws).length = 2 * ws.length := by
  induction ws with
  | nil => rfl
  | cons w ws ih =>
    have hbytes : (bytesOfWords (w :: ws)).length = 2 + (bytesOfWords ws).length :=
      List.length_append
    rw [hbytes, ih, List.length_cons]
    omega

theorem Word.bytes_ofBytes (low high : UInt8) : (ofBytes low high).bytes = [low, high] := by
  have hlow : (ofBytes low high).setWidth 8 = low.toBitVec := BitVec.setWidth_append_eq_right
  have hhigh : (ofBytes low high >>> 8).setWidth 8 = high.toBitVec := by
    ext i hi
    rw [BitVec.getElem_setWidth, BitVec.getLsbD_ushiftRight, ofBytes, BitVec.getLsbD_append,
      if_neg (by omega), Nat.add_sub_cancel_left, BitVec.getLsbD_eq_getElem hi]
  rw [bytes, hlow, hhigh]

/-- The high byte of a word counts by 256. -/
theorem Word.toNat_ofBytes (low high : UInt8) :
    (ofBytes low high).toNat = low.toNat + 256 * high.toNat := by
  have hlow : low.toBitVec.toNat < 2 ^ 8 := low.toBitVec.isLt
  rw [ofBytes, BitVec.toNat_append, ← Nat.shiftLeft_add_eq_or_of_lt hlow, Nat.shiftLeft_eq,
    UInt8.toNat_toBitVec, UInt8.toNat_toBitVec]
  omega

theorem length_wordsOfBytes (bytes : List UInt8) :
    (wordsOfBytes bytes).length = (bytes.length + 1) / 2 := by
  fun_induction wordsOfBytes bytes with
  | case1 low high rest ih =>
    simp only [List.length_cons, ih]
    omega
  | case2 => rw [List.length_singleton, List.length_singleton]
  | case3 => rfl

/-- The bytes of a file of an even length are those of its words. -/
theorem bytesOfWords_wordsOfBytes {bytes : List UInt8} {n : Nat} (h : bytes.length = 2 * n) :
    bytesOfWords (wordsOfBytes bytes) = bytes := by
  fun_induction wordsOfBytes bytes generalizing n with
  | case1 low high rest ih =>
    have hrest : rest.length = 2 * (n - 1) := by
      simp only [List.length_cons] at h
      omega
    have hbytes : bytesOfWords (Word.ofBytes low high :: wordsOfBytes rest) =
        (Word.ofBytes low high).bytes ++ bytesOfWords (wordsOfBytes rest) := rfl
    rw [hbytes, Word.bytes_ofBytes, ih hrest]
    rfl
  | case2 =>
    simp only [List.length_singleton] at h
    omega
  | case3 => rfl

/-- Words lie in a file at twice their place among the words. -/
theorem getElem?_wordsOfBytes {bytes : List UInt8} {low high : UInt8} {j : Nat}
    (hlow : bytes[2 * j]? = some low) (hhigh : bytes[2 * j + 1]? = some high) :
    (wordsOfBytes bytes)[j]? = some (Word.ofBytes low high) := by
  fun_induction wordsOfBytes bytes generalizing j with
  | case1 first second rest ih =>
    cases j with
    | zero =>
      obtain rfl := Option.some.inj hlow
      obtain rfl := Option.some.inj hhigh
      rfl
    | succ j => exact ih hlow hhigh
  | case2 => simp at hhigh
  | case3 => simp at hhigh

theorem bytesOfWords_drop (ws : List Word) (n : Nat) :
    bytesOfWords (ws.drop n) = (bytesOfWords ws).drop (2 * n) := by
  induction ws generalizing n with
  | nil => rw [List.drop_nil, bytesOfWords, List.flatMap_nil, List.drop_nil]
  | cons w ws ih =>
    cases n with
    | zero => rfl
    | succ n => exact ih n

theorem bytesOfWords_take (ws : List Word) (n : Nat) :
    bytesOfWords (ws.take n) = (bytesOfWords ws).take (2 * n) := by
  induction ws generalizing n with
  | nil => rw [List.take_nil, bytesOfWords, List.flatMap_nil, List.take_nil]
  | cons w ws ih =>
    cases n with
    | zero => rfl
    | succ n => exact congrArg (w.bytes ++ ·) (ih n)

/-! ## Images of files -/

/-- A file of words is the image of these words wherever there is room for them. -/
theorem Image.ofBytes_bytesOfWords {ws : List Word} {base : Word}
    (hroom : base.toNat + ws.length ≤ 0x10000) :
    Image.ofBytes (bytesOfWords ws) base 0 none = .ok ⟨base, ws.toArray⟩ := by
  have heven : ¬(bytesOfWords ws).length % 2 ≠ 0 := by
    rw [length_bytesOfWords]
    omega
  rw [ofBytes, wordsOfBytes_bytesOfWords, List.drop_zero, if_neg heven,
    if_neg (Nat.not_lt_zero _), Option.getD_none, if_neg (Nat.not_lt_zero _), Option.map_none,
    Option.getD_none, if_neg (by omega)]

namespace Image

variable {bytes : List UInt8} {base : Word} {skip k n : Nat} {length : Option Nat} {image : Image}

/-- A part of a file is an image iff it consists of words, lies in the file and has room in
    memory. -/
theorem ofBytes_eq_ok_iff :
    ofBytes bytes base skip length = .ok image ↔
      ∃ n, bytes.length = 2 * n ∧ skip ≤ n ∧ (∀ k ∈ length, k ≤ n - skip) ∧
        length.getD (n - skip) ≤ 0x10000 - base.toNat ∧
        image = ⟨base, (((wordsOfBytes bytes).drop skip).take
          (length.getD (n - skip))).toArray⟩ := by
  have hwords := length_wordsOfBytes bytes
  have hleft : ((wordsOfBytes bytes).drop skip).length = (bytes.length + 1) / 2 - skip := by
    rw [List.length_drop, hwords]
  have heven : ∀ n, bytes.length = 2 * n → (bytes.length + 1) / 2 = n := by
    omega
  -- Without a length the part is all that is left.
  have hpart : ∀ rest : List Word,
      (length.map rest.take).getD rest = rest.take (length.getD rest.length) := by
    intro rest
    cases length with
    | none => exact rest.take_length.symm
    | some k => rfl
  simp only [ofBytes, hpart, List.length_take, hleft, hwords]
  -- One case for each check, in their order, and then the image.
  split_ifs with hodd hskip hlength hroom
  · refine iff_of_false nofun ?_
    rintro ⟨n, hn, -⟩
    omega
  · refine iff_of_false nofun ?_
    rintro ⟨n, hn, hle, -⟩
    omega
  · refine iff_of_false nofun ?_
    rintro ⟨n, hn, -, hle, -⟩
    cases length with
    | none => exact absurd hlength (Nat.not_lt_zero _)
    | some k =>
      have hk : k ≤ n - skip := hle k rfl
      rw [Option.getD_some, heven n hn] at hlength
      omega
  · refine iff_of_false nofun ?_
    rintro ⟨n, hn, -, -, hfits, -⟩
    rw [heven n hn] at hroom
    omega
  · have hn : bytes.length = 2 * (bytes.length / 2) := by omega
    constructor
    · rintro ⟨⟩
      rw [heven _ hn] at hskip hlength hroom ⊢
      have hle : ∀ k ∈ length, k ≤ bytes.length / 2 - skip := by
        rintro k rfl
        exact Nat.not_lt.1 hlength
      have hmin : length.getD (bytes.length / 2 - skip) ≤ bytes.length / 2 - skip := by
        cases length with
        | none => exact Nat.le_refl _
        | some k => exact hle k rfl
      exact ⟨_, hn, Nat.not_lt.1 hskip, hle, by omega, rfl⟩
    · rintro ⟨n, hn', -, -, -, rfl⟩
      rw [heven n hn']

/-- The image has `k` words of a file, from the word `skip` of it on, at the addresses from `base`
    on. -/
structure IsWindow (bytes : List UInt8) (base : Word) (skip k : Nat) (image : Image) : Prop where
  base_eq : image.base = base
  size_eq : image.words.size = k
  word : ∀ j < k, ∃ low high w, bytes[2 * (skip + j)]? = some low ∧
    bytes[2 * (skip + j) + 1]? = some high ∧ image.words[j]? = some w ∧
    w.toNat = low.toNat + 256 * high.toNat
  bytes_eq : bytesOfWords image.words.toList = (bytes.drop (2 * skip)).take (2 * k)
  read_within : ∀ a : Word, base.toNat ≤ a.toNat → a.toNat < base.toNat + k →
    ∃ w, image.words[a.toNat - base.toNat]? = some w ∧ image.read? a = some w
  read_outside : ∀ a : Word, ¬(base.toNat ≤ a.toNat ∧ a.toNat < base.toNat + k) →
    image.read? a = none
  stop_eq : image.stop = base.toNat + k

/-- A part of the words of a file that has room in memory is a window of it. -/
theorem isWindow_take_drop (hn : bytes.length = 2 * n) (hskip : skip ≤ n) (hk : k ≤ n - skip)
    (hroom : k ≤ 0x10000 - base.toNat) :
    IsWindow bytes base skip k ⟨base, (((wordsOfBytes bytes).drop skip).take k).toArray⟩ := by
  have hsize : (((wordsOfBytes bytes).drop skip).take k).toArray.size = k := by
    rw [List.size_toArray, List.length_take, List.length_drop, length_wordsOfBytes, hn]
    omega
  have hget : ∀ j < k, (((wordsOfBytes bytes).drop skip).take k).toArray[j]? =
      (wordsOfBytes bytes)[skip + j]? := by
    intro j hj
    rw [List.getElem?_toArray, List.getElem?_take_of_lt hj, List.getElem?_drop]
  refine ⟨rfl, hsize, ?word, ?bytes, ?within, ?outside, ?stop⟩
  case word =>
    intro j hj
    have hlow := List.getElem?_eq_getElem (show 2 * (skip + j) < bytes.length by omega)
    have hhigh := List.getElem?_eq_getElem (show 2 * (skip + j) + 1 < bytes.length by omega)
    exact ⟨_, _, _, hlow, hhigh, (hget j hj).trans (getElem?_wordsOfBytes hlow hhigh),
      Word.toNat_ofBytes _ _⟩
  case bytes =>
    rw [List.toList_toArray, bytesOfWords_take, bytesOfWords_drop, bytesOfWords_wordsOfBytes hn]
  case within =>
    intro a hfrom hto
    have hj : a.toNat - base.toNat < (((wordsOfBytes bytes).drop skip).take k).toArray.size := by
      omega
    exact ⟨_, Array.getElem?_eq_getElem hj, (if_pos hfrom).trans (Array.getElem?_eq_getElem hj)⟩
  case outside =>
    intro a houtside
    by_cases hfrom : base.toNat ≤ a.toNat
    · have hbeyond : k ≤ a.toNat - base.toNat := by omega
      exact (if_pos hfrom).trans
        (Array.getElem?_eq_none (Nat.le_trans (Nat.le_of_eq hsize) hbeyond))
    · exact if_neg hfrom
  case stop =>
    have hstop : base.toNat + k ≤ 0x10000 := by
      have := base.isLt
      omega
    rw [stop, hsize]
    exact Nat.min_eq_left hstop

/-- A part of a file is an image iff it consists of words, lies in the file and has room in memory,
    and the image is then a window of the file with the bytes of that part. The other way round,
    words for which there is room are the image of the file they are written to. -/
theorem ofBytes_window :
    (∀ bytes base skip length,
      ((∃ image, ofBytes bytes base skip length = .ok image) ↔
        ∃ n, bytes.length = 2 * n ∧ skip ≤ n ∧ (∀ k ∈ length, k ≤ n - skip) ∧
          length.getD (n - skip) ≤ 0x10000 - base.toNat) ∧
      ∀ n image, bytes.length = 2 * n → ofBytes bytes base skip length = .ok image →
        IsWindow bytes base skip (length.getD (n - skip)) image) ∧
    ∀ (base : Word) ws, ws.length ≤ 0x10000 - base.toNat →
      ofBytes (bytesOfWords ws) base 0 none = .ok ⟨base, ws.toArray⟩ := by
  refine ⟨fun bytes base skip length => ⟨?_, ?_⟩, fun base ws hroom => ?_⟩
  · constructor
    · rintro ⟨image, himage⟩
      obtain ⟨n, hn, hskip, hlength, hroom, -⟩ := ofBytes_eq_ok_iff.1 himage
      exact ⟨n, hn, hskip, hlength, hroom⟩
    · rintro ⟨n, hn, hskip, hlength, hroom⟩
      exact ⟨_, ofBytes_eq_ok_iff.2 ⟨n, hn, hskip, hlength, hroom, rfl⟩⟩
  · intro n image hn himage
    obtain ⟨n', hn', hskip, hlength, hroom, rfl⟩ := ofBytes_eq_ok_iff.1 himage
    obtain rfl : n' = n := by omega
    refine isWindow_take_drop hn hskip ?_ hroom
    cases length with
    | none => exact Nat.le_refl _
    | some k => exact hlength k rfl
  · have hbase : base.toNat < 0x10000 := base.isLt
    exact ofBytes_bytesOfWords (by omega)

/-- Two words in the middle of a file, up to the last address, and no odd byte more. -/
theorem ofBytes_window_last :
    (∃ image, ofBytes [1, 2, 3, 4, 0xFF, 0x80, 7, 8] 0xFFFE 1 (some 2) = .ok image ∧
      IsWindow [1, 2, 3, 4, 0xFF, 0x80, 7, 8] 0xFFFE 1 2 image ∧
      image.words = #[0x0403, 0x80FF]) ∧
    ofBytes (bytesOfWords [0x0403, 0x80FF]) 0xFFFE 0 none = .ok ⟨0xFFFE, #[0x0403, 0x80FF]⟩ := by
  obtain ⟨hwindow, hwritten⟩ := ofBytes_window
  obtain ⟨hiff, hparts⟩ := hwindow [1, 2, 3, 4, 0xFF, 0x80, 7, 8] 0xFFFE 1 (some 2)
  obtain ⟨image, himage⟩ := hiff.2 ⟨4, rfl, by decide, by decide, by decide⟩
  have hwords : image.words = #[0x0403, 0x80FF] := by
    obtain ⟨n, -, -, -, -, rfl⟩ := ofBytes_eq_ok_iff.1 himage
    rfl
  exact ⟨⟨image, himage, hparts 4 image rfl himage, hwords⟩, hwritten 0xFFFE _ (by decide)⟩

end Image

end WordMachine
