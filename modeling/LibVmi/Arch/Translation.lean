import LibVmi.Data.RadixWalk
import LibVmi.Data.Words
import LibVmi.Driver

namespace LibVmi.Arch

open Data

structure Translation where
  physicalAddress : Gpa
  pageSize : UInt64
  deriving DecidableEq, Repr

structure AddressTranslator where
  cacheTag : UInt64
  translate : MemoryAccess → TranslationRoot → Gva → Result Translation

/-! Canonical addresses. Both walkers compare the bits from the sign bit up
with a sign extension; they differ only in how they compute the low mask. -/

def canonicalBy (lowMask : Option UInt64) (address : UInt64) (bits : UInt8) :
    Bool :=
  match lowMask with
  | none => false
  | some lowMask =>
      match checkedSub bits 1 with
      | none => false
      | some signShift =>
          match checkedShl 1 signShift.toNat with
          | none => false
          | some signBit =>
              let expectedUpper :=
                if address &&& signBit = 0 then 0 else ~~~lowMask
              address &&& ~~~lowMask == expectedUpper

/-- The bits from the sign bit up are all clear or all set. -/
def SignExtended (address : UInt64) (bits : Nat) : Prop :=
  address.toNat / 2 ^ (bits - 1) = 0 ∨
    address.toNat / 2 ^ (bits - 1) = 2 ^ (64 - (bits - 1)) - 1

private theorem checkedSub_bits_one {bits : UInt8} (positive : 0 < bits.toNat) :
    ∃ result, checkedSub bits 1 = some result ∧
      result.toNat = bits.toNat - 1 := by
  have bound := bits.toNat_lt
  have resultEq : (UInt8.ofNat (bits.toNat - 1)).toNat = bits.toNat - 1 :=
    UInt8.toNat_ofNat_of_lt' (by simp only [UInt8.size]; omega)
  refine ⟨UInt8.ofNat (bits.toNat - 1), ?_, resultEq⟩
  rw [checkedSub_eq_some]
  simp only [unsigned_toNat_uint8, UInt8.toNat_one]
  omega

private theorem div_succ_power (value position : Nat) :
    value / 2 ^ (position + 1) = value / 2 ^ position / 2 := by
  rw [Nat.pow_succ, Nat.div_div_eq_div_mul]

theorem canonicalBy_iff {mask address : UInt64} {bits : UInt8}
    (positive : 0 < bits.toNat) (below : bits.toNat < 64)
    (maskEq : mask.toNat = 2 ^ bits.toNat - 1) :
    canonicalBy (some mask) address bits = true ↔
      SignExtended address bits.toNat := by
  obtain ⟨signShift, shiftComputed, shiftEq⟩ := checkedSub_bits_one positive
  obtain ⟨signBit, bitComputed, bitEq⟩ :=
    one_checkedShl signShift.toNat (by omega)
  obtain ⟨position, positionEq⟩ : ∃ position, bits.toNat = position + 1 :=
    ⟨bits.toNat - 1, by omega⟩
  have signPosition : signShift.toNat = position := by omega
  have upperValue := and_not_low_mask_toNat address mask bits.toNat
    (Nat.le_of_lt below) maskEq
  have upperMask := not_low_mask_toNat mask (Nat.le_of_lt below) maskEq
  have signTest := and_bit_eq_zero_iff address signBit bitEq
  rw [signPosition] at signTest
  have quotientBound : address.toNat / 2 ^ position < 2 ^ (64 - position) := by
    rw [Nat.div_lt_iff_lt_mul (Nat.two_pow_pos position), ← Nat.pow_add,
      Nat.sub_add_cancel (by omega)]
    exact address.toNat_lt
  have powerSplit : 2 ^ (64 - position) = 2 * 2 ^ (64 - (position + 1)) := by
    rw [← Nat.pow_succ']
    congr 1
    omega
  have fullPower : 2 ^ 64 = 2 ^ (64 - (position + 1)) * 2 ^ (position + 1) := by
    rw [← Nat.pow_add, Nat.sub_add_cancel (by omega)]
  have unit : 0 < 2 ^ (position + 1) := Nat.two_pow_pos _
  have widthUnit : 0 < 2 ^ (64 - (position + 1)) := Nat.two_pow_pos _
  unfold canonicalBy SignExtended
  simp only [shiftComputed, bitComputed, beq_iff_eq]
  rw [positionEq, Nat.add_sub_cancel]
  rw [positionEq, div_succ_power] at upperValue
  rw [positionEq, fullPower] at upperMask
  generalize address.toNat / 2 ^ position = quotient at *
  generalize 2 ^ (64 - (position + 1)) = width at *
  by_cases clear : address &&& signBit = 0
  · rw [if_pos clear, ← UInt64.toNat_inj, upperValue, UInt64.toNat_zero,
      Nat.mul_eq_zero, or_iff_left (Nat.pos_iff_ne_zero.mp unit)]
    have even := signTest.mp clear
    omega
  · have odd : quotient % 2 ≠ 0 := fun even => clear (signTest.mpr even)
    have productIff :
        quotient / 2 * 2 ^ (position + 1) =
            width * 2 ^ (position + 1) - 2 ^ (position + 1) ↔
          quotient / 2 = width - 1 := by
      rw [← Nat.sub_one_mul]
      exact Nat.mul_left_inj (Nat.pos_iff_ne_zero.mp unit)
    rw [if_neg clear, ← UInt64.toNat_inj, upperValue, upperMask, productIff]
    omega

theorem low_mask_computed (bits : Nat) (below : bits < 64) :
    ∃ mask, ((checkedShl 1 bits).bind fun value => checkedSub value 1) =
        some mask ∧ mask.toNat = 2 ^ bits - 1 := by
  obtain ⟨word, shifted, wordEq⟩ := one_checkedShl bits below
  obtain ⟨mask, subtracted, maskEq⟩ := checkedSub_one word (by
    rw [wordEq]
    exact Nat.two_pow_pos bits)
  exact ⟨mask, by rw [shifted]; exact subtracted, by rw [maskEq, wordEq]⟩

theorem signExtended_congr {left right : UInt64} (bits : Nat) {low : Nat}
    (below : low ≤ bits - 1)
    (equal : left.toNat / 2 ^ low = right.toNat / 2 ^ low) :
    SignExtended left bits ↔ SignExtended right bits := by
  unfold SignExtended
  rw [RadixWalk.div_two_pow_eq_of_le below equal]

end LibVmi.Arch
