import LibVmi.Data.Checked
import Mathlib.Data.Nat.Bitwise

namespace LibVmi.Data

/-! Masks and shifts of 64-bit words as arithmetic on their values. -/

theorem nat_and_range_mask (value : Nat) {low high : Nat} (ordered : low ≤ high) :
    value &&& (2 ^ high - 2 ^ low) = value % 2 ^ high / 2 ^ low * 2 ^ low := by
  have maskEq : 2 ^ high - 2 ^ low = (2 ^ (high - low) - 1) <<< low := by
    rw [Nat.shiftLeft_eq, Nat.sub_mul, ← Nat.pow_add, Nat.one_mul,
      Nat.sub_add_cancel ordered]
  rw [maskEq, ← Nat.shiftRight_eq_div_pow, ← Nat.shiftLeft_eq]
  apply Nat.eq_of_testBit_eq
  intro position
  simp only [Nat.testBit_and, Nat.testBit_shiftLeft,
    Nat.testBit_two_pow_sub_one, Nat.testBit_shiftRight, Nat.testBit_mod_two_pow]
  by_cases above : low ≤ position
  · have positionEq : low + (position - low) = position := by omega
    have belowIff : position - low < high - low ↔ position < high := by omega
    simp only [above, positionEq, belowIff, decide_true, Bool.true_and]
    exact Bool.and_comm _ _
  · simp [above]

theorem nat_or_eq_add {frame offset shift : Nat} (aligned : 2 ^ shift ∣ frame)
    (below : offset < 2 ^ shift) : frame ||| offset = frame + offset := by
  obtain ⟨quotient, rfl⟩ := aligned
  exact (Nat.two_pow_add_eq_or_of_lt below quotient).symm

theorem and_range_mask_toNat (value mask : UInt64) (low high : Nat)
    (ordered : low ≤ high) (maskEq : mask.toNat = 2 ^ high - 2 ^ low) :
    (value &&& mask).toNat =
      value.toNat % 2 ^ high / 2 ^ low * 2 ^ low := by
  rw [UInt64.toNat_and, maskEq, nat_and_range_mask _ ordered]

theorem and_low_mask_toNat (value mask : UInt64) (bits : Nat)
    (maskEq : mask.toNat = 2 ^ bits - 1) :
    (value &&& mask).toNat = value.toNat % 2 ^ bits := by
  rw [UInt64.toNat_and, maskEq, Nat.and_two_pow_sub_one_eq_mod]

theorem not_low_mask_toNat (mask : UInt64) {bits : Nat} (width : bits ≤ 64)
    (maskEq : mask.toNat = 2 ^ bits - 1) :
    (~~~mask).toNat = 2 ^ 64 - 2 ^ bits := by
  have positive : 0 < 2 ^ bits := Nat.two_pow_pos bits
  have bound : 2 ^ bits ≤ 2 ^ 64 := Nat.pow_le_pow_right (by decide) width
  rw [UInt64.toNat_not, maskEq]
  simp only [UInt64.size]
  omega

theorem and_not_low_mask_toNat (value mask : UInt64) (bits : Nat)
    (width : bits ≤ 64) (maskEq : mask.toNat = 2 ^ bits - 1) :
    (value &&& ~~~mask).toNat = value.toNat / 2 ^ bits * 2 ^ bits := by
  rw [and_range_mask_toNat value _ bits 64 width
    (not_low_mask_toNat mask width maskEq),
    Nat.mod_eq_of_lt value.toNat_lt]

def checkedShl (value : UInt64) (shift : Nat) : Option UInt64 :=
  if shift < 64 then some (value <<< UInt64.ofNat shift) else none

theorem one_checkedShl (shift : Nat) (bound : shift < 64) :
    ∃ word, checkedShl 1 shift = some word ∧ word.toNat = 2 ^ shift := by
  refine ⟨1 <<< UInt64.ofNat shift, if_pos bound, ?_⟩
  have shiftEq : (UInt64.ofNat shift).toNat = shift :=
    UInt64.toNat_ofNat_of_lt' (by simp only [UInt64.size]; omega)
  have powerBound : 2 ^ shift < 2 ^ 64 :=
    Nat.pow_lt_pow_right (by decide) bound
  rw [UInt64.toNat_shiftLeft, shiftEq, Nat.mod_eq_of_lt bound,
    Nat.shiftLeft_eq, UInt64.toNat_one, Nat.one_mul,
    Nat.mod_eq_of_lt powerBound]

theorem checkedSub_one (word : UInt64) (positive : 0 < word.toNat) :
    ∃ result, checkedSub word 1 = some result ∧
      result.toNat = word.toNat - 1 := by
  refine ⟨UInt64.ofNat (word.toNat - 1), ?_, ?_⟩
  · rw [checkedSub_eq_some]
    simp only [unsigned_toNat_uint64, UInt64.toNat_one]
    rw [UInt64.toNat_ofNat_of_lt' (by
      have := word.toNat_lt
      simp only [UInt64.size]
      omega)]
    omega
  · exact UInt64.toNat_ofNat_of_lt' (by
      have := word.toNat_lt
      simp only [UInt64.size]
      omega)

theorem shiftRight_toNat (value : UInt64) {shift : Nat} (bound : shift < 64) :
    (value >>> UInt64.ofNat shift).toNat = value.toNat / 2 ^ shift := by
  have shiftEq : (UInt64.ofNat shift).toNat = shift :=
    UInt64.toNat_ofNat_of_lt' (by simp only [UInt64.size]; omega)
  rw [UInt64.toNat_shiftRight, shiftEq, Nat.mod_eq_of_lt bound,
    Nat.shiftRight_eq_div_pow]

/-- Testing one bit of a word. -/
theorem and_bit_eq_zero_iff (value bit : UInt64) {position : Nat}
    (bitEq : bit.toNat = 2 ^ position) :
    value &&& bit = 0 ↔ value.toNat / 2 ^ position % 2 = 0 := by
  have maskEq : bit.toNat = 2 ^ (position + 1) - 2 ^ position := by
    rw [bitEq, Nat.pow_succ]
    omega
  have positive : 0 < 2 ^ position := Nat.two_pow_pos position
  rw [← UInt64.toNat_inj, UInt64.toNat_zero,
    and_range_mask_toNat value bit position _ (Nat.le_succ position)
      maskEq, Nat.pow_succ,
    Nat.mod_mul_right_div_self, Nat.mul_eq_zero]
  omega

theorem testBit_not (value : UInt64) {position : Nat} (within : position < 64) :
    (~~~value).toNat.testBit position = !value.toNat.testBit position := by
  have bound : value.toNat < 2 ^ 64 := value.toNat_lt
  have complement : (~~~value).toNat = 2 ^ 64 - (value.toNat + 1) := by
    rw [UInt64.toNat_not, Nat.add_comm, Nat.sub_add_eq]
    rfl
  rw [complement, Nat.testBit_two_pow_sub_succ bound, decide_eq_true within,
    Bool.true_and]

/-! Sign extension by masks. -/

theorem truncated_sign (value lowMask signMask : UInt64) {bit : Nat}
    (lowEq : lowMask.toNat = 2 ^ (bit + 1) - 1)
    (signEq : signMask.toNat = 2 ^ bit) :
    (if value &&& lowMask &&& signMask = 0 then value &&& lowMask
      else value &&& lowMask ||| ~~~lowMask).toBitVec =
      (value.toBitVec.setWidth (bit + 1)).signExtend 64 := by
  have low : ∀ position, lowMask.toBitVec.getLsbD position =
      decide (position < bit + 1) := by
    intro position
    rw [← Nat.testBit_two_pow_sub_one, ← lowEq]
    rfl
  have sign : value &&& lowMask &&& signMask = 0 ↔
      value.toBitVec.getLsbD bit = false := by
    have kept : (value.toNat % 2 ^ (bit + 1)).testBit bit =
        value.toBitVec.getLsbD bit := by
      rw [Nat.testBit_mod_two_pow, decide_eq_true (Nat.lt_succ_self bit),
        Bool.true_and]
      rfl
    rw [and_bit_eq_zero_iff _ _ signEq, and_low_mask_toNat _ _ _ lowEq,
      ← kept, Nat.testBit_eq_decide_div_mod_eq, decide_eq_false_iff_not]
    omega
  apply BitVec.eq_of_getLsbD_eq
  intro position inside
  rw [BitVec.getLsbD_signExtend, BitVec.getLsbD_setWidth, BitVec.msb_setWidth,
    Nat.add_sub_cancel, decide_eq_true inside, Bool.true_and]
  split
  · rename_i clear
    rw [UInt64.toBitVec_and, BitVec.getLsbD_and, low, sign.mp clear]
    by_cases kept : position < bit + 1 <;> simp [kept]
  · rename_i set
    have negative := Bool.eq_true_of_not_eq_false (mt sign.mpr set)
    rw [UInt64.toBitVec_or, UInt64.toBitVec_and, UInt64.toBitVec_not,
      BitVec.getLsbD_or, BitVec.getLsbD_and, BitVec.getLsbD_not, low, negative]
    by_cases kept : position < bit + 1 <;> simp [kept, inside]

theorem setWidth_signExtend {width : Nat} (word : BitVec width)
    (fits : width ≤ 64) : (word.signExtend 64).setWidth width = word := by
  apply BitVec.eq_of_getLsbD_eq
  intro position inside
  rw [BitVec.getLsbD_setWidth, BitVec.getLsbD_signExtend, if_pos inside]
  simp [inside]
  omega

end LibVmi.Data
