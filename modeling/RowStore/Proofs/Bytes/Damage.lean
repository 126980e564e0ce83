import RowStore.Bytes.Checksum

namespace RowStore

namespace Bytes

variable {left right changed : Bytes}

/-- Byte strings that are the same but for one byte. -/
inductive DifferInOne : Bytes → Bytes → Prop
  | here {byte other : UInt8} (different : byte ≠ other) (rest : Bytes) :
      DifferInOne (byte :: rest) (other :: rest)
  | later (byte : UInt8) {left right : Bytes} (differ : DifferInOne left right) :
      DifferInOne (byte :: left) (byte :: right)

namespace DifferInOne

theorem length_eq (differ : DifferInOne left right) : left.length = right.length := by
  induction differ with
  | here different rest => rfl
  | later byte differ ih => rw [List.length_cons, List.length_cons, ih]

theorem ne (differ : DifferInOne left right) : left ≠ right := by
  induction differ with
  | here different rest => exact fun same => different (List.cons.inj same).1
  | later byte differ ih => exact fun same => ih (List.cons.inj same).2

/-- The byte that is changed is in one of two parts, and the other part is kept. -/
theorem of_append (differ : DifferInOne (left ++ right) changed) :
    (∃ first, DifferInOne left first ∧ changed = first ++ right) ∨
      ∃ second, DifferInOne right second ∧ changed = left ++ second := by
  induction left generalizing changed with
  | nil => exact Or.inr ⟨changed, differ, rfl⟩
  | cons byte rest ih =>
      cases differ with
      | here different => exact Or.inl ⟨_, .here different rest, rfl⟩
      | later _ later =>
          rcases ih later with ⟨first, firstDiffer, rfl⟩ | ⟨second, secondDiffer, rfl⟩
          · exact Or.inl ⟨_, .later byte firstDiffer, rfl⟩
          · exact Or.inr ⟨second, secondDiffer, rfl⟩

theorem of_append_append {other more : Bytes}
    (differ : DifferInOne (left ++ right) (other ++ more)) (width : left.length = other.length) :
    DifferInOne left other ∧ right = more ∨ left = other ∧ DifferInOne right more := by
  rcases differ.of_append with ⟨first, firstDiffer, same⟩ | ⟨second, secondDiffer, same⟩
  · obtain ⟨rfl, rfl⟩ := List.append_inj same (width.symm.trans firstDiffer.length_eq)
    exact Or.inl ⟨firstDiffer, rfl⟩
  · obtain ⟨rfl, rfl⟩ := List.append_inj same width.symm
    exact Or.inr ⟨rfl, secondDiffer⟩

theorem modify {position : Nat} {mask : UInt8} (inside : position < left.length)
    (nonzero : mask ≠ 0) : DifferInOne left (left.modify position (· ^^^ mask)) := by
  induction left generalizing position with
  | nil => exact absurd inside (Nat.not_lt_zero position)
  | cons byte rest ih =>
      cases position with
      | zero =>
          refine .here (fun (same : byte = byte ^^^ mask) => nonzero ?_) rest
          have unmasked : byte ^^^ 0 = byte ^^^ mask := by rw [UInt8.xor_zero, ← same]
          exact ((UInt8.xor_right_inj byte).mp unmasked).symm
      | succ position => exact .later byte (ih (Nat.lt_of_succ_lt_succ inside))

end DifferInOne

theorem modify_append_left {position : Nat} {edit : UInt8 → UInt8} (rest : Bytes)
    (inside : position < left.length) :
    (left ++ rest).modify position edit = left.modify position edit ++ rest := by
  induction left generalizing position with
  | nil => exact absurd inside (Nat.not_lt_zero position)
  | cons byte tail ih =>
      cases position with
      | zero => rfl
      | succ position => exact congrArg (byte :: ·) (ih (Nat.lt_of_succ_lt_succ inside))

/-- A byte changed in the middle part of a byte string. -/
theorem modify_middle {offset : Nat} {edit : UInt8 → UInt8} (before after : Bytes)
    (inside : offset < left.length) :
    (before ++ (left ++ after)).modify (before.length + offset) edit =
      before ++ (left.modify offset edit ++ after) := by
  rw [← modify_append_left after inside]
  exact List.modifyTailIdx_add _ offset before (left ++ after)

end Bytes

namespace ChecksumRegister

variable {register other : ChecksumRegister} {byte changed : UInt8}

/-- A step moves every bit down and takes the polynomial in where the lowest bit was set. -/
theorem getLsbD_shiftBit (register : ChecksumRegister) (bit : Nat) :
    (shiftBit register).toBitVec.getLsbD bit =
      (register.toBitVec.getLsbD (bit + 1) ^^
        (register.toBitVec.getLsbD 0 && (0xEDB88320#32).getLsbD bit)) := by
  have lowest : register &&& 1 = 1 ↔ register.toBitVec.getLsbD 0 = true := by
    rw [← UInt32.toBitVec_inj, UInt32.toBitVec_and]
    change register.toBitVec &&& 1#32 = 1#32 ↔ _
    rw [BitVec.and_one_eq_setWidth_ofBool_getLsbD]
    cases register.toBitVec.getLsbD 0 <;> decide
  have moved : (register >>> 1).toBitVec.getLsbD bit = register.toBitVec.getLsbD (bit + 1) := by
    rw [UInt32.toBitVec_shiftRight]
    change (register.toBitVec >>> 1).getLsbD bit = _
    rw [BitVec.getLsbD_ushiftRight, Nat.add_comm]
  unfold shiftBit
  split
  · rename_i set
    rw [UInt32.toBitVec_xor, BitVec.getLsbD_xor, moved, lowest.mp set, Bool.true_and]
    rfl
  · rename_i clear
    have unset : register.toBitVec.getLsbD 0 = false :=
      Bool.eq_false_iff.mpr fun set => clear (lowest.mpr set)
    rw [moved, unset, Bool.false_and, Bool.xor_false]

theorem shiftBit_injective (same : shiftBit register = shiftBit other) : register = other := by
  have bits : ∀ bit, (shiftBit register).toBitVec.getLsbD bit =
      (shiftBit other).toBitVec.getLsbD bit := by
    intro bit
    rw [same]
  simp only [getLsbD_shiftBit] at bits
  -- The polynomial has its highest bit set, so that bit tells which way a step has gone.
  have lowest : register.toBitVec.getLsbD 0 = other.toBitVec.getLsbD 0 := by
    have highest := bits 31
    rw [BitVec.getLsbD_of_ge register.toBitVec 32 (Nat.le_refl 32),
      BitVec.getLsbD_of_ge other.toBitVec 32 (Nat.le_refl 32)] at highest
    simpa using highest
  apply UInt32.toBitVec_inj.mp
  apply BitVec.eq_of_getLsbD_eq
  intro bit _
  cases bit with
  | zero => exact lowest
  | succ bit =>
      have higher := bits bit
      rw [lowest] at higher
      exact Bool.xor_left_inj.mp higher

theorem absorbByte_inj (same : absorbByte register byte = absorbByte other changed) :
    register ^^^ byte.toUInt32 = other ^^^ changed.toUInt32 := by
  unfold absorbByte at same
  iterate 8 replace same := shiftBit_injective same
  exact same

theorem absorb_injective {bytes : Bytes} (same : absorb register bytes = absorb other bytes) :
    register = other := by
  induction bytes generalizing register other with
  | nil => exact same
  | cons byte rest ih =>
      have absorbed : absorbByte register byte = absorbByte other byte := ih same
      exact (UInt32.xor_left_inj byte.toUInt32).mp (absorbByte_inj absorbed)

theorem absorb_ne {left right : Bytes} (register : ChecksumRegister)
    (differ : Bytes.DifferInOne left right) : absorb register left ≠ absorb register right := by
  induction differ generalizing register with
  | @here byte other different rest =>
      intro same
      have absorbed : absorbByte register byte = absorbByte register other := absorb_injective same
      have widened := (UInt32.xor_right_inj register).mp (absorbByte_inj absorbed)
      exact different (UInt8.toUInt32_inj.mp widened)
  | later byte differ ih => exact ih (absorbByte register byte)

end ChecksumRegister

/-- One changed byte always shows in the checksum, however long the message is. -/
theorem Bytes.DifferInOne.checksumField_ne {left right : Bytes} (differ : DifferInOne left right) :
    left.checksumField ≠ right.checksumField := by
  intro same
  have numbers := littleEndian_inj left.checksum.toNat_lt right.checksum.toNat_lt same
  have registers := (UInt32.xor_left_inj _).mp (UInt32.toNat_inj.mp numbers)
  exact ChecksumRegister.absorb_ne ChecksumRegister.initial differ registers

end RowStore
