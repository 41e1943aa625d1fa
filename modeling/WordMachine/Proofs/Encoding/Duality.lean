import WordMachine.Encoding.Decode
import WordMachine.Encoding.Encode
import WordMachine.Proofs.Except
import WordMachine.Proofs.Encoding.Field

/-!
# Encoding and decoding are dual

Encoding and decoding are the two directions of one table: an instruction has a word
if and only if that word says it (`encode_eq_ok_iff_decode_eq`). The instructions without a
word are those with a number that its field cannot hold, and those that would set
flags only without a form for it (`Instruction.Encodable`); the words without an
instruction are kept as they are.

There are two halves. The opcodes that lead a word are tried from the longest to the
shortest, and the first alone decides what the word says (`decode_of_leads`); and in each
family reading the fields of a word and making a word from fields undo each other
(`Move.encode_decode`, `Move.decode_word` and their like).
-/

namespace WordMachine

open Layout

/-! ## Numbers and registers in fields -/

namespace Field

variable {f : Field} {w : Word}

/-- The number in a field can be encoded there again. -/
theorem encodeUnsigned_get (hf : f.Fits) (w : Word) :
    f.encodeUnsigned (f.get w).toNat = .ok (f.put (f.get w)) := by
  have hlt := toNat_get_lt hf w
  have hmax : ((f.get w).toNat : Int) ≤ f.maxUnsigned := by
    rw [maxUnsigned_eq hf]
    have : ((f.get w).toNat : Int) < 2 ^ f.width := by exact_mod_cast hlt
    omega
  rw [encodeUnsigned, if_pos ⟨Int.natCast_nonneg _, hmax⟩]
  simp

theorem encodeSigned_getSigned (hf : f.Fits) (hw : 1 ≤ f.width) (w : Word) :
    f.encodeSigned (f.getSigned w) = .ok (f.put (f.get w)) := by
  rw [encodeSigned, if_pos (getSigned_mem hf hw w), put_getSigned hf hw]

theorem encodeRegister_getRegister (hf : f.Fits) (hw : f.width = 4) (w : Word) :
    f.encodeRegister (f.getRegister w) = f.put (f.get w) := by
  have hlt : (f.get w).toNat < 16 := by
    have := toNat_get_lt hf w
    rwa [hw] at this
  simp [encodeRegister, getRegister, Nat.mod_eq_of_lt hlt]

/-- What can be encoded in a field without sign: the numbers in its range. -/
theorem encodeUnsigned_eq_ok {x : Int} (h : f.encodeUnsigned x = .ok w) :
    0 ≤ x ∧ x ≤ f.maxUnsigned ∧ w = f.put (BitVec.ofInt 16 x) := by
  rw [encodeUnsigned, Except.ite_eq_ok_iff] at h
  exact ⟨h.1.1, h.1.2, h.2.symm⟩

theorem encodeSigned_eq_ok {x : Int} (h : f.encodeSigned x = .ok w) :
    f.minSigned ≤ x ∧ x ≤ f.maxSigned ∧ w = f.put (BitVec.ofInt 16 x) := by
  rw [encodeSigned, Except.ite_eq_ok_iff] at h
  exact ⟨h.1.1, h.1.2, h.2.symm⟩

/-- A number in the range of a field is what the field has, if it has the bits of the
    number. -/
theorem toNat_get_of_get (hf : f.Fits) {n : Nat} (hn : (n : Int) ≤ f.maxUnsigned)
    (h : f.get w = BitVec.ofInt 16 n &&& f.mask) : (f.get w).toNat = n := by
  have hpow : (2 : Nat) ^ f.width ≤ 2 ^ 16 := Nat.pow_le_pow_right (by decide) hf.width_le
  rw [maxUnsigned_eq hf] at hn
  have hlt : n < 2 ^ f.width := by
    have : (n : Int) < 2 ^ f.width := by omega
    exact_mod_cast this
  rw [h, toNat_and_mask hf, BitVec.ofInt_natCast, BitVec.toNat_ofNat,
    Nat.mod_eq_of_lt (by omega : n < 2 ^ 16), Nat.mod_eq_of_lt hlt]

theorem getRegister_of_get (hf : f.Fits) (hw : f.width = 4) {r : Register}
    (h : f.get w = BitVec.ofNat 16 r.index &&& f.mask) : f.getRegister w = r := by
  have hr : r.index.val < 2 ^ f.width := by rw [hw]; exact r.index_lt
  have h16 : r.index.val < 2 ^ 16 := Nat.lt_trans r.index_lt (by decide)
  have hget : (f.get w).toNat = r.index.val := by
    rw [h, toNat_and_mask hf, BitVec.toNat_ofNat, Nat.mod_eq_of_lt h16, Nat.mod_eq_of_lt hr]
  simp only [getRegister, hget, Nat.mod_eq_of_lt r.index_lt]

end Field

/-! ## The family of a word -/

/-- The families of instructions by their opcodes, a longer one before a shorter one, each
    with what its words say. -/
def families : List (Opcode × (Word → Instruction)) :=
  [(System.opcode, fun w => (System.decode w).getD (.unknown w)),
    (Flag.opcode, fun w => (Flag.decode w).getD (.unknown w)),
    (LoadSigned.opcode, LoadSigned.decode),
    (Move.opcode, Move.decode),
    (Shift.opcode, fun w => (Shift.decode w).getD (.unknown w)),
    (Branch.opcode, fun w => (Branch.decode w).getD (.unknown w)),
    (Alu.opcode, fun w => (Alu.decode w).getD (.unknown w)),
    (Transfer.opcode, Transfer.decode),
    (LoadImmediate.opcode, fun w => .loadImmediate (LoadImmediate.value.get w).toNat)]

variable {v w : Word}

/-- What a word says in the first of some families of which the opcode leads it. -/
def sayIn (families : List (Opcode × (Word → Instruction))) (w : Word) : Instruction :=
  ((families.find? (·.1.leads w)).map (·.2 w)).getD (.unknown w)

theorem sayIn_cons (o : Opcode) (read : Word → Instruction)
    (rest : List (Opcode × (Word → Instruction))) (w : Word) :
    sayIn ((o, read) :: rest) w = if o.leads w = true then read w else sayIn rest w := by
  by_cases h : o.leads w = true <;> simp [sayIn, h]

theorem decode_eq_sayIn (w : Word) :
    Instruction.decode w = if w = haltWord then .halt else sayIn families w := by
  simp only [families, sayIn_cons]
  rfl

theorem decode_of_leads (before : List (Opcode × (Word → Instruction)))
    {after : List (Opcode × (Word → Instruction))} {o : Opcode} {read : Word → Instruction}
    (h : families = before ++ (o, read) :: after)
    (ho : o.leads w = true) (hb : ∀ p ∈ before, ¬p.1.leads w = true)
    (hhalt : ¬o.leads haltWord = true) : Instruction.decode w = read w := by
  have hw : w ≠ haltWord := fun e => hhalt (e ▸ ho)
  have hnone : before.find? (·.1.leads w) = none := List.find?_eq_none.2 hb
  have hfind : sayIn (before ++ (o, read) :: after) w = sayIn ((o, read) :: after) w := by
    rw [sayIn, List.find?_append, hnone, Option.none_or, sayIn]
  rw [decode_eq_sayIn, if_neg hw, h, hfind, sayIn_cons, if_pos ho]

/-- A word is in the family of its opcode, if the opcodes before do not start with that one. -/
theorem decode_of_apart (before : List (Opcode × (Word → Instruction)))
    {after : List (Opcode × (Word → Instruction))} {o : Opcode} {read : Word → Instruction}
    (h : families = before ++ (o, read) :: after)
    (ho : o.leads w = true) (hb : ∀ p ∈ before, o.Apart p.1)
    (hhalt : ¬o.leads haltWord = true) : Instruction.decode w = read w :=
  decode_of_leads before h ho (fun p hp => (hb p hp).not_leads ho) hhalt

/-! ## Codes -/

/-- Choices that are found by their own codes can be told from them. -/
theorem find?_code_eq_some_iff {α : Type} {code : α → Word} {all : List α}
    (hfound : ∀ a, all.find? (code · == code a) = some a) {c : Word} {a : α} :
    all.find? (code · == c) = some a ↔ code a = c := by
  constructor
  · intro h
    simpa using List.find?_some h
  · rintro rfl
    exact hfound a

@[simp] theorem AluOp.ofCode?_eq_some {c : Word} {op : AluOp} :
    AluOp.ofCode? c = some op ↔ op.code = c :=
  find?_code_eq_some_iff fun op => by cases op <;> rfl

@[simp] theorem ShiftOp.ofCode?_eq_some {c : Word} {op : ShiftOp} :
    ShiftOp.ofCode? c = some op ↔ op.code = c :=
  find?_code_eq_some_iff fun op => by cases op <;> rfl

@[simp] theorem Condition.ofCode?_eq_some {c : Word} {condition : Condition} :
    Condition.ofCode? c = some condition ↔ condition.code = c :=
  find?_code_eq_some_iff fun condition => by cases condition <;> rfl

@[simp] theorem SystemOp.ofCode?_eq_some {c : Word} {op : SystemOp} :
    SystemOp.ofCode? c = some op ↔ op.code = c :=
  find?_code_eq_some_iff fun op => by cases op <;> rfl

@[simp] theorem FlagGroup.ofCode?_eq_some {c : Word} {set : Bool} {group : FlagGroup} :
    FlagGroup.ofCode? c = some (set, group) ↔ group.code set = c := by
  refine @find?_code_eq_some_iff _ (fun p : Bool × FlagGroup => p.2.code p.1) _ ?_ c (set, group)
  rintro ⟨set, group⟩
  cases set <;> cases group <;> rfl

/-! ## From words to instructions and back -/

/-- A word is joined from what its fields have, if every bit is in some field. -/
theorem and_eq_self {m : Word} (hm : m = BitVec.allOnes 16) (w : Word) : w &&& m = w := by
  rw [hm, BitVec.and_allOnes]

theorem Field.get_eq_zero_or_one {f : Field} (hf : f.Fits) (hw : f.width = 1) (w : Word) :
    f.get w = 0#16 ∨ f.get w = 1#16 := by
  have hlt := Field.toNat_get_lt hf w
  rw [hw] at hlt
  have h : (f.get w).toNat = 0 ∨ (f.get w).toNat = 1 := by omega
  exact h.imp BitVec.eq_of_toNat_eq BitVec.eq_of_toNat_eq

namespace Layout

theorem LoadImmediate.encode_decode (h : LoadImmediate.opcode.leads w = true) :
    (Instruction.loadImmediate (LoadImmediate.value.get w).toNat).encode = .ok w := by
  rw [Instruction.encode, Field.encodeUnsigned_get (by decide), Except.map,
    Opcode.word_of_leads (by decide) h]
  simp only [Field.put_get, ← BitVec.and_or_distrib_left]
  rw [and_eq_self (by decide)]

theorem Transfer.encode_decode (h : Transfer.opcode.leads w = true) :
    (Transfer.decode w).encode = .ok w := by
  have hjoin : encodeTransfer (direction.get w) (register.getRegister w) (base.getRegister w)
      (offset.getSigned w) = .ok w := by
    rw [encodeTransfer, Field.encodeSigned_getSigned (by decide) (by decide), Except.map,
      Opcode.word_of_leads (by decide) h, Field.encodeRegister_getRegister (by decide) rfl,
      Field.encodeRegister_getRegister (by decide) rfl]
    simp only [Field.put_get, ← BitVec.and_or_distrib_left]
    rw [and_eq_self (by decide)]
  rw [Transfer.decode]
  rcases Field.get_eq_zero_or_one (f := direction) (by decide) rfl w with hd | hd
  · rw [hd] at hjoin ⊢
    exact hjoin
  · rw [hd] at hjoin ⊢
    exact hjoin

theorem Alu.encode_decode (h : Alu.opcode.leads w = true) {i : Instruction}
    (hi : Alu.decode w = some i) : i.encode = .ok w := by
  simp only [Alu.decode, Option.bind_eq_bind, Option.bind_eq_some_iff, AluOp.ofCode?_eq_some] at hi
  obtain ⟨op, hop, hi⟩ := hi
  split at hi
  · cases hi
  · next hform =>
    cases hi
    have hwrite : write.put (if (write.get w == 1) = true then 1 else 0)
        = write.put (write.get w) := by
      rcases Field.get_eq_zero_or_one (f := write) (by decide) rfl w with hd | hd
      · rw [hd]
        rfl
      · rw [hd]
        rfl
    have hoperand : Operand.encode (if immediate.get w = 1 then .immediate (operand.get w).toNat
        else .register (operand.getRegister w))
          = .ok (immediate.put (immediate.get w) ||| operand.put (operand.get w)) := by
      rcases Field.get_eq_zero_or_one (f := immediate) (by decide) rfl w with hd | hd
      · rw [hd, if_neg (by decide), Operand.encode,
          Field.encodeRegister_getRegister (by decide) rfl, Field.put_zero, BitVec.zero_or]
      · rw [hd, if_pos (by decide), Operand.encode, Field.encodeUnsigned_get (by decide)]
        rfl
    rw [Instruction.encode, if_neg hform, hoperand, Except.map, hwrite, hop,
      Opcode.word_of_leads (by decide) h, Field.encodeRegister_getRegister (by decide) rfl]
    simp only [Field.put_get, ← BitVec.and_or_distrib_left]
    rw [and_eq_self (by decide)]

theorem Shift.encode_decode (h : Shift.opcode.leads w = true) {i : Instruction}
    (hi : Shift.decode w = some i) : i.encode = .ok w := by
  simp only [Shift.decode, Option.map_eq_some_iff, ShiftOp.ofCode?_eq_some] at hi
  obtain ⟨op, hop, rfl⟩ := hi
  rw [Instruction.encode, Field.encodeUnsigned_get (by decide), Except.map, hop,
    Opcode.word_of_leads (by decide) h, Field.encodeRegister_getRegister (by decide) rfl]
  simp only [Field.put_get, ← BitVec.and_or_distrib_left]
  rw [and_eq_self (by decide)]

theorem Branch.encode_decode (h : Branch.opcode.leads w = true) {i : Instruction}
    (hi : Branch.decode w = some i) : i.encode = .ok w := by
  simp only [Branch.decode, Option.map_eq_some_iff, Condition.ofCode?_eq_some] at hi
  obtain ⟨cond, hcond, rfl⟩ := hi
  simp only [Instruction.encode]
  rw [if_pos (Field.getSigned_mem (by decide) (by decide) w), hcond,
    Opcode.word_of_leads (by decide) h, Field.put_getSigned (by decide) (by decide)]
  simp only [Field.put_get, ← BitVec.and_or_distrib_left]
  rw [and_eq_self (by decide)]

theorem Move.encode_decode (h : Move.opcode.leads w = true) : (Move.decode w).encode = .ok w := by
  rw [Move.decode, Instruction.encode, Field.encodeUnsigned_get (by decide), Except.map,
    Opcode.word_of_leads (by decide) h, Field.encodeRegister_getRegister (by decide) rfl,
    Field.encodeRegister_getRegister (by decide) rfl]
  simp only [Field.put_get, ← BitVec.and_or_distrib_left]
  rw [and_eq_self (by decide)]

theorem LoadSigned.encode_decode (h : LoadSigned.opcode.leads w = true) :
    (LoadSigned.decode w).encode = .ok w := by
  rw [LoadSigned.decode, Instruction.encode, Field.encodeSigned_getSigned (by decide) (by decide),
    Except.map, Opcode.word_of_leads (by decide) h,
    Field.encodeRegister_getRegister (by decide) rfl]
  simp only [Field.put_get, ← BitVec.and_or_distrib_left]
  rw [and_eq_self (by decide)]

theorem Flag.encode_decode (h : Flag.opcode.leads w = true) {i : Instruction}
    (hi : Flag.decode w = some i) : i.encode = .ok w := by
  simp only [Flag.decode, Option.map_eq_some_iff, Prod.exists, FlagGroup.ofCode?_eq_some] at hi
  obtain ⟨set, group, hcode, rfl⟩ := hi
  have hread := Field.encodeUnsigned_get (f := index) (by decide) w
  have hmax := (Field.encodeUnsigned_eq_ok hread).2.1
  rw [Instruction.encode, if_pos hmax, hcode, BitVec.ofNat_toNat, BitVec.setWidth_eq,
    Opcode.word_of_leads (by decide) h]
  simp only [Field.put_get, ← BitVec.and_or_distrib_left]
  rw [and_eq_self (by decide)]

theorem System.encode_decode (h : System.opcode.leads w = true) {i : Instruction}
    (hi : System.decode w = some i) : i.encode = .ok w := by
  simp only [System.decode, Option.map_eq_some_iff, SystemOp.ofCode?_eq_some] at hi
  obtain ⟨op, hop, rfl⟩ := hi
  rw [Instruction.encode, hop, Opcode.word_of_leads (by decide) h]
  simp only [Field.put_get, ← BitVec.and_or_distrib_left]
  rw [and_eq_self (by decide)]

end Layout

/-- What is read, or else the word itself, has the word if what is read has it. -/
theorem encode_getD {read : Option Instruction} (h : ∀ i, read = some i → i.encode = .ok w) :
    (read.getD (.unknown w)).encode = .ok w := by
  cases read with
  | none => rfl
  | some i => exact h i rfl

/-- Every word is the word of what it says. -/
theorem encode_decode (w : Word) : (Instruction.decode w).encode = .ok w := by
  -- Which family comes first does not matter here: what is read in any family of which the
  -- opcode leads the word has that word.
  have hfamily : ∀ p ∈ families, p.1.leads w = true → (p.2 w).encode = .ok w := by
    simp only [families, List.forall_mem_cons, List.not_mem_nil, false_implies, implies_true,
      and_true]
    refine ⟨fun h => ?_, fun h => ?_, LoadSigned.encode_decode, Move.encode_decode, fun h => ?_,
      fun h => ?_, fun h => ?_, Transfer.encode_decode, LoadImmediate.encode_decode⟩
    · exact encode_getD fun i hi => System.encode_decode h hi
    · exact encode_getD fun i hi => Flag.encode_decode h hi
    · exact encode_getD fun i hi => Shift.encode_decode h hi
    · exact encode_getD fun i hi => Branch.encode_decode h hi
    · exact encode_getD fun i hi => Alu.encode_decode h hi
  rw [decode_eq_sayIn]
  split
  · next hw => rw [hw]; rfl
  · rw [sayIn]
    cases hp : families.find? (·.1.leads w) with
    | none => rfl
    | some p => exact hfamily p (List.mem_of_find?_eq_some hp) (by simpa using List.find?_some hp)

/-! ## From instructions to words and back -/

namespace Layout

theorem LoadImmediate.decode_word {n : Nat} (h : (Instruction.loadImmediate n).encode = .ok w) :
    Instruction.decode w = .loadImmediate n := by
  simp only [Instruction.encode, Except.map_eq_ok_iff] at h
  obtain ⟨bits, hbits, hw⟩ := h
  obtain ⟨-, hmax, rfl⟩ := Field.encodeUnsigned_eq_ok hbits
  have hleads : opcode.leads w = true := by
    rw [Opcode.leads_iff (by decide), ← hw]
    simp (disch := decide)
  have hvalue : (value.get w).toNat = n := by
    refine Field.toNat_get_of_get (by decide) hmax ?_
    rw [← hw]
    simp (disch := decide)
  rw [decode_of_apart (families.take 8) rfl hleads (by decide) (by decide), hvalue]

theorem Transfer.decode_word {d : Word} {r b : Register} {x : Int}
    (h : encodeTransfer d r b x = .ok w) (hd : d = loads ∨ d = stores) :
    Instruction.decode w = if d = stores then .store r b x else .load r b x := by
  simp only [encodeTransfer, Except.map_eq_ok_iff] at h
  obtain ⟨bits, hbits, hw⟩ := h
  obtain ⟨hmin, hmax, rfl⟩ := Field.encodeSigned_eq_ok hbits
  have hleads : opcode.leads w = true := by
    rw [Opcode.leads_iff (by decide), ← hw]
    simp (disch := decide) [Field.encodeRegister]
  have hdirection : direction.get w = d := by
    rw [← hw]
    simp (disch := decide) only [Field.get_or, Field.encodeRegister, Opcode.get_word_of_beside,
      Field.get_put, Field.get_put_of_beside, BitVec.zero_or, BitVec.or_zero]
    rcases hd with rfl | rfl <;> rfl
  have hregister : register.getRegister w = r := by
    refine Field.getRegister_of_get (by decide) rfl ?_
    rw [← hw]
    simp (disch := decide) [Field.encodeRegister]
  have hbase : base.getRegister w = b := by
    refine Field.getRegister_of_get (by decide) rfl ?_
    rw [← hw]
    simp (disch := decide) [Field.encodeRegister]
  have hoffset : offset.getSigned w = x := by
    refine Field.getSigned_of_get (by decide) (by decide) hmin hmax ?_
    rw [← hw]
    simp (disch := decide) [Field.encodeRegister]
  rw [decode_of_apart (families.take 7) rfl hleads (by decide) (by decide),
    Transfer.decode, hdirection, hregister, hbase, hoffset]

/-- The words of shifts are those that lack an operation on two words. -/
theorem Alu.not_leads_shift (h : (AluOp.ofCode? (operation.get w)).isSome) :
    ¬Shift.opcode.leads w = true := by
  intro hshift
  have hcode : operation.get w = 7 := by
    rw [Opcode.leads, beq_iff_eq] at hshift
    have hmove : w >>> 10 = 0b110111#16 := hshift
    rw [Field.get]
    show w >>> 10 &&& operation.mask = 7
    rw [hmove]
    decide
  rw [hcode] at h
  exact absurd h (by decide)

/-- The fields of an operand tell it. -/
theorem Alu.operand_of_encode {o : Operand} {bits : Word} (h : o.encode = .ok bits) :
    ∃ a b, bits = immediate.put a ||| operand.put b ∧
      ∀ w, immediate.get w = a &&& immediate.mask → operand.get w = b &&& operand.mask →
        (if immediate.get w = 1 then .immediate (operand.get w).toNat
          else .register (operand.getRegister w)) = o := by
  cases o with
  | register r =>
    cases h
    refine ⟨0#16, BitVec.ofNat 16 r.index, ?_, fun w ha hb => ?_⟩
    · rw [Field.put_zero, BitVec.zero_or, Field.encodeRegister]
    · rw [ha, if_neg (by decide), Field.getRegister_of_get (by decide) rfl hb]
  | immediate n =>
    simp only [Operand.encode, Except.map_eq_ok_iff] at h
    obtain ⟨value, hvalue, rfl⟩ := h
    obtain ⟨-, hmax, rfl⟩ := Field.encodeUnsigned_eq_ok hvalue
    refine ⟨1#16, BitVec.ofInt 16 n, rfl, fun w ha hb => ?_⟩
    rw [ha, if_pos (by decide), Field.toNat_get_of_get (by decide) hmax hb]

theorem Alu.decode_word {op : AluOp} {t : Register} {o : Operand} {writes : Bool}
    (h : (Instruction.alu op t o writes).encode = .ok w) :
    Instruction.decode w = .alu op t o writes := by
  simp only [Instruction.encode] at h
  split at h
  · cases h
  · next hform =>
    rw [Except.map_eq_ok_iff] at h
    obtain ⟨bits, hbits, hw⟩ := h
    obtain ⟨a, b, rfl, hoperand⟩ := Alu.operand_of_encode hbits
    have hleads : opcode.leads w = true := by
      rw [Opcode.leads_iff (by decide), ← hw]
      simp (disch := decide) [Field.encodeRegister]
    have hop : operation.get w = op.code := by
      rw [← hw]
      simp (disch := decide) only [Field.get_or, Field.encodeRegister, Opcode.get_word_of_beside,
        Field.get_put, Field.get_put_of_beside, BitVec.zero_or, BitVec.or_zero]
      cases op <;> rfl
    have htarget : target.getRegister w = t := by
      refine Field.getRegister_of_get (by decide) rfl ?_
      rw [← hw]
      simp (disch := decide) [Field.encodeRegister]
    have hwrite : (write.get w == 1) = writes := by
      rw [← hw]
      simp (disch := decide) only [Field.get_or, Field.encodeRegister, Opcode.get_word_of_beside,
        Field.get_put, Field.get_put_of_beside, BitVec.zero_or, BitVec.or_zero]
      cases writes <;> rfl
    have hsource := hoperand w (by rw [← hw]; simp (disch := decide) [Field.encodeRegister])
      (by rw [← hw]; simp (disch := decide) [Field.encodeRegister])
    have hcode : AluOp.ofCode? (operation.get w) = some op := by rw [hop, AluOp.ofCode?_eq_some]
    have hdecode : Alu.decode w = some (.alu op t o writes) := by
      rw [Alu.decode, hcode, Option.bind_eq_bind, Option.bind_some, hwrite, if_neg hform, hsource,
        htarget]
    -- The opcode of shifts starts with that of operations on two words; from there on, the code
    -- of the operation tells them apart.
    have hbefore : ∀ p ∈ families.take 6, ¬p.1.leads w = true := by
      have hshift := Alu.not_leads_shift (w := w) (by rw [hcode]; rfl)
      simp only [families, List.take_succ_cons, List.take_zero, List.forall_mem_cons,
        List.not_mem_nil, false_implies, implies_true, and_true]
      exact ⟨Opcode.Apart.not_leads (by decide) hleads, Opcode.Apart.not_leads (by decide) hleads,
        Opcode.Apart.not_leads (by decide) hleads, Opcode.Apart.not_leads (by decide) hleads,
        hshift, Opcode.Apart.not_leads (by decide) hleads⟩
    rw [decode_of_leads (families.take 6) rfl hleads hbefore (by decide), hdecode]
    rfl

theorem Shift.decode_word {op : ShiftOp} {t : Register} {n : Nat}
    (h : (Instruction.shift op t n).encode = .ok w) : Instruction.decode w = .shift op t n := by
  simp only [Instruction.encode, Except.map_eq_ok_iff] at h
  obtain ⟨bits, hbits, hw⟩ := h
  obtain ⟨-, hmax, rfl⟩ := Field.encodeUnsigned_eq_ok hbits
  have hleads : opcode.leads w = true := by
    rw [Opcode.leads_iff (by decide), ← hw]
    simp (disch := decide) [Field.encodeRegister]
  have hkind : kind.get w = op.code := by
    rw [← hw]
    simp (disch := decide) only [Field.get_or, Field.encodeRegister, Opcode.get_word_of_beside,
      Field.get_put, Field.get_put_of_beside, BitVec.zero_or, BitVec.or_zero]
    cases op <;> rfl
  have htarget : target.getRegister w = t := by
    refine Field.getRegister_of_get (by decide) rfl ?_
    rw [← hw]
    simp (disch := decide) [Field.encodeRegister]
  have hcount : (count.get w).toNat = n := by
    refine Field.toNat_get_of_get (by decide) hmax ?_
    rw [← hw]
    simp (disch := decide) [Field.encodeRegister]
  rw [decode_of_apart (families.take 4) rfl hleads (by decide) (by decide), Shift.decode,
    ShiftOp.ofCode?_eq_some.2 hkind.symm, htarget, hcount]
  rfl

theorem Branch.decode_word {cond : Condition} {x : Int}
    (h : (Instruction.branch cond x).encode = .ok w) : Instruction.decode w = .branch cond x := by
  simp only [Instruction.encode] at h
  split at h
  · next hx =>
    have hw := Except.ok.inj h
    have hleads : opcode.leads w = true := by
      rw [Opcode.leads_iff (by decide), ← hw]
      simp (disch := decide)
    have hcond : condition.get w = cond.code := by
      rw [← hw]
      simp (disch := decide) only [Field.get_or, Opcode.get_word_of_beside, Field.get_put,
        Field.get_put_of_beside, BitVec.zero_or, BitVec.or_zero]
      cases cond <;> rfl
    have hoffset : offset.getSigned w = x := by
      refine Field.getSigned_of_get (by decide) (by decide) hx.1 hx.2 ?_
      rw [← hw]
      simp (disch := decide)
    rw [decode_of_apart (families.take 5) rfl hleads (by decide) (by decide),
      Branch.decode, Condition.ofCode?_eq_some.2 hcond.symm, hoffset]
    rfl
  · cases h

theorem Move.decode_word {t s : Register} {n : Nat} (h : (Instruction.move t s n).encode = .ok w) :
    Instruction.decode w = .move t s n := by
  simp only [Instruction.encode, Except.map_eq_ok_iff] at h
  obtain ⟨bits, hbits, hw⟩ := h
  obtain ⟨-, hmax, rfl⟩ := Field.encodeUnsigned_eq_ok hbits
  have hleads : opcode.leads w = true := by
    rw [Opcode.leads_iff (by decide), ← hw]
    simp (disch := decide) [Field.encodeRegister]
  have htarget : target.getRegister w = t := by
    refine Field.getRegister_of_get (by decide) rfl ?_
    rw [← hw]
    simp (disch := decide) [Field.encodeRegister]
  have hsource : source.getRegister w = s := by
    refine Field.getRegister_of_get (by decide) rfl ?_
    rw [← hw]
    simp (disch := decide) [Field.encodeRegister]
  have haddend : (addend.get w).toNat = n := by
    refine Field.toNat_get_of_get (by decide) hmax ?_
    rw [← hw]
    simp (disch := decide) [Field.encodeRegister]
  rw [decode_of_apart (families.take 3) rfl hleads (by decide) (by decide), Move.decode,
    htarget, hsource, haddend]

theorem LoadSigned.decode_word {t : Register} {x : Int}
    (h : (Instruction.loadSigned t x).encode = .ok w) : Instruction.decode w = .loadSigned t x := by
  simp only [Instruction.encode, Except.map_eq_ok_iff] at h
  obtain ⟨bits, hbits, hw⟩ := h
  obtain ⟨hmin, hmax, rfl⟩ := Field.encodeSigned_eq_ok hbits
  have hleads : opcode.leads w = true := by
    rw [Opcode.leads_iff (by decide), ← hw]
    simp (disch := decide) [Field.encodeRegister]
  have htarget : target.getRegister w = t := by
    refine Field.getRegister_of_get (by decide) rfl ?_
    rw [← hw]
    simp (disch := decide) [Field.encodeRegister]
  have hvalue : value.getSigned w = x := by
    refine Field.getSigned_of_get (by decide) (by decide) hmin hmax ?_
    rw [← hw]
    simp (disch := decide) [Field.encodeRegister]
  rw [decode_of_apart (families.take 2) rfl hleads (by decide) (by decide),
    LoadSigned.decode, htarget, hvalue]

theorem Flag.decode_word {set : Bool} {group : FlagGroup} {n : Nat}
    (h : (Instruction.flag set group n).encode = .ok w) :
    Instruction.decode w = .flag set group n := by
  simp only [Instruction.encode] at h
  split at h
  · next hmax =>
    have hw := Except.ok.inj h
    have hleads : opcode.leads w = true := by
      rw [Opcode.leads_iff (by decide), ← hw]
      simp (disch := decide)
    have hkind : kind.get w = group.code set := by
      rw [← hw]
      simp (disch := decide) only [Field.get_or, Opcode.get_word_of_beside, Field.get_put,
        Field.get_put_of_beside, BitVec.zero_or, BitVec.or_zero]
      cases set <;> cases group <;> rfl
    have hindex : (index.get w).toNat = n := by
      refine Field.toNat_get_of_get (by decide) hmax ?_
      rw [← hw, BitVec.ofInt_natCast]
      simp (disch := decide)
    rw [decode_of_apart (families.take 1) rfl hleads (by decide) (by decide), Flag.decode,
      FlagGroup.ofCode?_eq_some.2 hkind.symm, hindex]
    rfl
  · cases h

theorem System.decode_word {op : SystemOp} (h : (Instruction.system op).encode = .ok w) :
    Instruction.decode w = .system op := by
  cases h
  cases op <;> decide

end Layout

/-- A word that an instruction has says that instruction. -/
theorem decode_of_encode {i : Instruction} (hi : ∀ v, i ≠ .unknown v) (h : i.encode = .ok w) :
    Instruction.decode w = i := by
  cases i with
  | loadImmediate n => exact LoadImmediate.decode_word h
  | load t b x => exact Transfer.decode_word h (.inl rfl)
  | store t b x => exact Transfer.decode_word h (.inr rfl)
  | alu op t o writes => exact Alu.decode_word h
  | shift op t n => exact Shift.decode_word h
  | branch cond x => exact Branch.decode_word h
  | move t s n => exact Move.decode_word h
  | loadSigned t x => exact LoadSigned.decode_word h
  | flag set group n => exact Flag.decode_word h
  | system op => exact System.decode_word h
  | halt => cases h; decide
  | unknown v => exact absurd rfl (hi v)

/-! ## The duality -/

/-- The instruction is one that a word can say, and not a word kept as it is. -/
def Instruction.Known (i : Instruction) : Prop := ∀ v, i ≠ .unknown v

/-- The numbers of the instruction fit their fields, and if it sets flags only, it has a
    form for that. -/
def Instruction.Encodable : Instruction → Prop
  | loadImmediate n => n ≤ 0x7FFF
  | load _ _ x => -16 ≤ x ∧ x ≤ 15
  | store _ _ x => -16 ≤ x ∧ x ≤ 15
  | alu op _ operand writes =>
    (writes = false → op ≠ .or ∧ op ≠ .xor) ∧ ∀ n, operand = .immediate n → n ≤ 15
  | shift _ _ n => n ≤ 15
  | branch _ x => -256 ≤ x ∧ x ≤ 255
  | move _ _ n => n ≤ 3
  | loadSigned _ x => -16 ≤ x ∧ x ≤ 15
  | flag _ _ n => n ≤ 15
  | system _ => True
  | halt => True
  | unknown _ => True

theorem Field.exists_encodeUnsigned {f : Field} {n : Nat} :
    (∃ w, f.encodeUnsigned n = .ok w) ↔ (n : Int) ≤ f.maxUnsigned :=
  Except.exists_ite_eq_ok_iff.trans (and_iff_right (Int.natCast_nonneg n))

theorem Field.exists_encodeSigned {f : Field} {x : Int} :
    (∃ w, f.encodeSigned x = .ok w) ↔ f.minSigned ≤ x ∧ x ≤ f.maxSigned :=
  Except.exists_ite_eq_ok_iff

theorem exists_encode_iff (i : Instruction) : (∃ w, i.encode = .ok w) ↔ i.Encodable := by
  cases i with
  | loadImmediate n =>
    have hmax : LoadImmediate.value.maxUnsigned = 0x7FFF := rfl
    rw [Instruction.encode, Except.exists_map_eq_ok_iff, Field.exists_encodeUnsigned, hmax,
      Instruction.Encodable]
    omega
  | load t b x =>
    rw [Instruction.encode, encodeTransfer, Except.exists_map_eq_ok_iff, Field.exists_encodeSigned]
    rfl
  | store t b x =>
    rw [Instruction.encode, encodeTransfer, Except.exists_map_eq_ok_iff, Field.exists_encodeSigned]
    rfl
  | alu op t o writes =>
    have hoperand : (∃ w, o.encode = .ok w) ↔ ∀ n, o = .immediate n → n ≤ 15 := by
      cases o with
      | register r => simp [Operand.encode]
      | immediate n =>
        have hmax : Alu.operand.maxUnsigned = 15 := rfl
        rw [Operand.encode, Except.exists_map_eq_ok_iff, Field.exists_encodeUnsigned, hmax]
        simp only [Operand.immediate.injEq, forall_eq']
        omega
    simp only [Instruction.encode, Instruction.Encodable]
    split
    · next h =>
      obtain ⟨rfl, hform⟩ := h
      cases op <;> simp_all [AluOp.flagsOnlyMnemonic?]
    · next h =>
      rw [Except.exists_map_eq_ok_iff, hoperand]
      cases op <;> simp_all [AluOp.flagsOnlyMnemonic?]
  | shift op t n =>
    have hmax : Shift.count.maxUnsigned = 15 := rfl
    rw [Instruction.encode, Except.exists_map_eq_ok_iff, Field.exists_encodeUnsigned, hmax,
      Instruction.Encodable]
    omega
  | branch cond x => exact Except.exists_ite_eq_ok_iff
  | move t s n =>
    have hmax : Move.addend.maxUnsigned = 3 := rfl
    rw [Instruction.encode, Except.exists_map_eq_ok_iff, Field.exists_encodeUnsigned, hmax,
      Instruction.Encodable]
    omega
  | loadSigned t x =>
    rw [Instruction.encode, Except.exists_map_eq_ok_iff, Field.exists_encodeSigned]
    rfl
  | flag set group n =>
    have hmax : Flag.index.maxUnsigned = 15 := rfl
    rw [Instruction.encode, Except.exists_ite_eq_ok_iff, hmax, Instruction.Encodable]
    omega
  | system op => simp [Instruction.encode, Instruction.Encodable]
  | halt => simp [Instruction.encode, Instruction.Encodable]
  | unknown v => simp [Instruction.encode, Instruction.Encodable]

/-- A word that says no instruction says itself. -/
theorem eq_of_decode_unknown {v : Word} (h : Instruction.decode w = .unknown v) : v = w := by
  have hw := encode_decode w
  rw [h] at hw
  exact Except.ok.inj hw

/-- Encoding and decoding are dual: an instruction has a word exactly if the word says it.
    So the instructions without a word are those that no word says, which are those with
    a number out of range and those that would set flags only without a form for it; and the
    words without an instruction, kept as they are, are those of no instruction. -/
theorem encode_eq_ok_iff_decode_eq :
    (∀ (i : Instruction) (w : Word), i.Known → (i.encode = .ok w ↔ Instruction.decode w = i)) ∧
    (∀ w v : Word, Instruction.decode w = .unknown v →
      v = w ∧ (Instruction.unknown v).encode = .ok w) ∧
    (∀ i : Instruction, i.Known →
      ((∃ fault, i.encode = .error fault) ↔ ∀ w, Instruction.decode w ≠ i) ∧
      ((∃ fault, i.encode = .error fault) ↔ ¬i.Encodable)) ∧
    (∀ w : Word, (∃ v, Instruction.decode w = .unknown v) ↔
      ∀ i : Instruction, i.Known → i.encode ≠ .ok w) := by
  have hdual : ∀ (i : Instruction) (w : Word), i.Known →
      (i.encode = .ok w ↔ Instruction.decode w = i) :=
    fun i w hi => ⟨decode_of_encode hi, fun h => h ▸ encode_decode w⟩
  refine ⟨hdual, fun w v h => ?_, fun i hi => ⟨?_, ?_⟩, fun w => ⟨?_, fun h => ?_⟩⟩
  · obtain rfl := eq_of_decode_unknown h
    exact ⟨rfl, rfl⟩
  · rw [Except.exists_eq_error_iff, not_exists]
    exact forall_congr' fun w => not_congr (hdual i w hi)
  · rw [Except.exists_eq_error_iff, exists_encode_iff]
  · rintro ⟨v, hv⟩ i hi hw
    exact hi v (((hdual i w hi).1 hw).symm.trans hv)
  · by_contra hknown
    exact h _ (fun v hv => hknown ⟨v, hv⟩) (encode_decode w)

/-- The duality at a comparison with the largest number. -/
theorem encode_eq_ok_iff_decode_eq_compare :
    (Instruction.alu .sub ⟨2⟩ (.immediate 15) false).Known ∧
    ((Instruction.alu .sub ⟨2⟩ (.immediate 15) false).encode = .ok 0xC49F ↔
      Instruction.decode 0xC49F = .alu .sub ⟨2⟩ (.immediate 15) false) :=
  have hknown : (Instruction.alu .sub ⟨2⟩ (.immediate 15) false).Known := fun _ => nofun
  ⟨hknown, encode_eq_ok_iff_decode_eq.1 _ _ hknown⟩

end WordMachine
