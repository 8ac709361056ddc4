import LibVmi.Data.Words
import Mathlib.Data.Finset.Card
import Mathlib.Order.Interval.Finset.Nat

namespace LibVmi.Data.Bitmap

/-! A fixed number of 64-bit words as a set of small numbers. -/

variable {count : Nat}

def test (words : Vector UInt64 count) (bit : Nat) : Bool :=
  (words[bit / 64]?.getD 0).toNat.testBit (bit % 64)

def members (words : Vector UInt64 count) : Finset Nat :=
  (Finset.range (64 * count)).filter fun bit => test words bit = true

theorem test_eq_false_of_beyond {words : Vector UInt64 count} {bit : Nat}
    (beyond : 64 * count ≤ bit) : test words bit = false := by
  have missing : words[bit / 64]? = none :=
    Vector.getElem?_eq_none (by omega)
  simp [test, missing]

@[simp] theorem mem_members {words : Vector UInt64 count} {bit : Nat} :
    bit ∈ members words ↔ test words bit = true := by
  simp only [members, Finset.mem_filter, Finset.mem_range,
    and_iff_right_iff_imp]
  intro held
  by_contra beyond
  rw [test_eq_false_of_beyond (by omega)] at held
  contradiction

@[simp] theorem test_replicate_zero (bit : Nat) :
    test (Vector.replicate count 0) bit = false := by
  unfold test
  by_cases within : bit / 64 < count
  · simp [within]
  · have missing : (Vector.replicate count (0 : UInt64))[bit / 64]? = none :=
      Vector.getElem?_eq_none (by omega)
    simp [missing]

theorem members_card_le (words : Vector UInt64 count) :
    (members words).card ≤ 64 * count := by
  have bounded := Finset.card_filter_le (Finset.range (64 * count))
    fun bit => test words bit = true
  rwa [Finset.card_range] at bounded

/-- Masking a word tests one bit. -/
theorem and_mask_eq_zero (words : Vector UInt64 count) {bit : Nat}
    {mask : UInt64} (maskEq : mask.toNat = 2 ^ (bit % 64)) :
    words[bit / 64]?.getD 0 &&& mask = 0 ↔ test words bit = false := by
  rw [and_bit_eq_zero_iff _ mask maskEq, test,
    Nat.testBit_eq_decide_div_mod_eq, decide_eq_false_iff_not]
  omega

/-- Setting a bit of one word adds one member. -/
theorem test_set_or (words : Vector UInt64 count) {bit : Nat}
    (within : bit / 64 < count) {mask : UInt64}
    (maskEq : mask.toNat = 2 ^ (bit % 64)) (other : Nat) :
    test (words.set (bit / 64) (words[bit / 64]?.getD 0 ||| mask)) other =
      (decide (other = bit) || test words other) := by
  unfold test
  by_cases same : other / 64 = bit / 64
  · rw [same, Vector.getElem?_set_self within, Option.getD_some,
      UInt64.toNat_or, Nat.testBit_or, maskEq, Nat.testBit_two_pow,
      Bool.or_comm]
    congr 1
    rw [decide_eq_decide]
    omega
  · rw [Vector.getElem?_set_ne within (Ne.symm same)]
    have different : other ≠ bit := fun equal => same (by rw [equal])
    simp [different]

/-- Clearing a bit of one word removes one member. -/
theorem test_set_and_not (words : Vector UInt64 count) {bit : Nat}
    (within : bit / 64 < count) {mask : UInt64}
    (maskEq : mask.toNat = 2 ^ (bit % 64)) (other : Nat) :
    test (words.set (bit / 64) (words[bit / 64]?.getD 0 &&& ~~~mask)) other =
      (decide (other ≠ bit) && test words other) := by
  unfold test
  by_cases same : other / 64 = bit / 64
  · rw [same, Vector.getElem?_set_self within, Option.getD_some,
      UInt64.toNat_and, Nat.testBit_and,
      testBit_not mask (Nat.mod_lt _ (by decide)), maskEq,
      Nat.testBit_two_pow, Bool.and_comm]
    congr 1
    rw [← decide_not, decide_eq_decide]
    omega
  · rw [Vector.getElem?_set_ne within (Ne.symm same)]
    have different : other ≠ bit := fun equal => same (by rw [equal])
    simp [different]

theorem members_insert {words added : Vector UInt64 count} {bit : Nat}
    (clear : test words bit = false)
    (tests : ∀ other, test added other =
      (decide (other = bit) || test words other)) :
    (members added).card = (members words).card + 1 := by
  have inserted : members added = insert bit (members words) := by
    ext other
    simp [tests other]
  rw [inserted, Finset.card_insert_of_notMem (by simp [clear])]

theorem members_erase {words removed : Vector UInt64 count} {bit : Nat}
    (held : test words bit = true)
    (tests : ∀ other, test removed other =
      (decide (other ≠ bit) && test words other)) :
    (members removed).card + 1 = (members words).card := by
  have erased : members removed = (members words).erase bit := by
    ext other
    simp [tests other]
  rw [erased, Finset.card_erase_add_one (by simp [held])]

end LibVmi.Data.Bitmap
