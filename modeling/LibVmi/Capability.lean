import LibVmi.Data.Words
import LibVmi.Types

namespace LibVmi

open Data

/-! Sets of capabilities as the bits of a word. -/

namespace Capability

def position : Capability → Nat
  | .memoryRead => 0
  | .memoryWrite => 1
  | .registerRead => 2
  | .registerWrite => 3
  | .control => 4
  | .events => 5
  | .memoryView => 6
  | .acquisition => 7
  | .lifecycle => 8

def bit (capability : Capability) : CapabilitySet :=
  ⟨1 <<< UInt64.ofNat capability.position⟩

theorem position_lt (capability : Capability) : capability.position < 64 := by
  cases capability <;> decide

theorem position_injective {left right : Capability}
    (same : left.position = right.position) : left = right := by
  cases left <;> cases right <;> first | rfl | contradiction

theorem bit_toNat (capability : Capability) :
    capability.bit.bits.toNat = 2 ^ capability.position := by
  cases capability <;> rfl

end Capability

namespace CapabilitySet

def empty : CapabilitySet := ⟨0⟩

def isEmpty (set : CapabilitySet) : Bool :=
  set.bits == 0

def contains (set other : CapabilitySet) : Bool :=
  set.bits &&& other.bits == other.bits

def insert (set other : CapabilitySet) : CapabilitySet :=
  ⟨set.bits ||| other.bits⟩

def differenceOf (set other : CapabilitySet) : CapabilitySet :=
  ⟨set.bits &&& ~~~other.bits⟩

def containsCapability (set : CapabilitySet) (capability : Capability) : Bool :=
  set.contains capability.bit

def insertCapability (set : CapabilitySet) (capability : Capability) :
    CapabilitySet :=
  set.insert capability.bit

def fromCaps (caps : List Capability) : CapabilitySet :=
  caps.foldl insertCapability empty

/-- A capability is in a set where its bit is set. -/
theorem containsCapability_iff {set : CapabilitySet} {capability : Capability} :
    set.containsCapability capability = true ↔
      set.bits.toNat.testBit capability.position = true := by
  have positive : 0 < 2 ^ capability.position := Nat.two_pow_pos _
  rw [containsCapability, contains, beq_iff_eq, ← UInt64.toNat_inj,
    UInt64.toNat_and, capability.bit_toNat, Nat.and_two_pow]
  cases set.bits.toNat.testBit capability.position with
  | true => simp
  | false =>
      rw [Bool.toNat_false, Nat.zero_mul]
      constructor
      · intro same
        omega
      · exact nofun

@[simp] theorem containsCapability_insert {set : CapabilitySet}
    {added capability : Capability} :
    (set.insertCapability added).containsCapability capability = true ↔
      capability = added ∨ set.containsCapability capability = true := by
  rw [containsCapability_iff, containsCapability_iff, insertCapability, insert,
    UInt64.toNat_or, Nat.testBit_or, added.bit_toNat, Nat.testBit_two_pow,
    Bool.or_eq_true, decide_eq_true_eq, Or.comm]
  constructor
  · intro held
    exact held.imp_left fun same => (Capability.position_injective same).symm
  · intro held
    exact held.imp_left fun same => by rw [same]

@[simp] theorem containsCapability_empty (capability : Capability) :
    empty.containsCapability capability = false := by
  rw [← Bool.not_eq_true, containsCapability_iff]
  simp [empty]

theorem containsCapability_foldl {caps : List Capability} {set : CapabilitySet}
    {capability : Capability} :
    (caps.foldl insertCapability set).containsCapability capability = true ↔
      capability ∈ caps ∨ set.containsCapability capability = true := by
  induction caps generalizing set with
  | nil => simp
  | cons added caps induction =>
      rw [List.foldl_cons, induction, containsCapability_insert,
        List.mem_cons, or_left_comm, or_assoc]

@[simp] theorem containsCapability_fromCaps {caps : List Capability}
    {capability : Capability} :
    (fromCaps caps).containsCapability capability = true ↔
      capability ∈ caps := by
  rw [fromCaps, containsCapability_foldl]
  simp

/-- Nothing is missing where the difference is empty. -/
theorem containsCapability_of_difference {required available : CapabilitySet}
    (enough : (required.differenceOf available).isEmpty = true)
    {capability : Capability}
    (needed : required.containsCapability capability = true) :
    available.containsCapability capability = true := by
  rw [containsCapability_iff] at needed ⊢
  rw [isEmpty, differenceOf, beq_iff_eq, ← UInt64.toNat_inj,
    UInt64.toNat_and, UInt64.toNat_zero] at enough
  by_contra absent
  rw [Bool.not_eq_true] at absent
  have kept : (required.bits.toNat &&& (~~~available.bits).toNat).testBit
      capability.position = true := by
    rw [Nat.testBit_and, needed, testBit_not _ capability.position_lt, absent]
    rfl
  rw [enough, Nat.zero_testBit] at kept
  exact Bool.false_ne_true kept

end CapabilitySet

end LibVmi
