import LibVmi.Arch.Translation

namespace LibVmi.Arch

open Data

/-! What a page-granular cache may rely on. A mapping is constant on the range
of its leaf, and a failure is shared by the whole 4 KiB page. -/

/-- The same kind of failure at the same level. The two reports may differ only
in the virtual address that they quote. -/
def SameFault : VmiError → VmiError → Prop
  | .nonCanonicalAddress _ bits, other =>
      ∃ address, other = .nonCanonicalAddress address bits
  | .pageNotPresent _ level, other =>
      ∃ address, other = .pageNotPresent address level
  | error, other => other = error

def pageBase (address : UInt64) : UInt64 :=
  address &&& ~~~0xfff

structure MappingConsistent (translator : AddressTranslator) : Prop where
  aligned : ∀ memory root va found,
    translator.translate memory root va = .ok found →
      (∃ bits, 12 ≤ bits ∧ found.pageSize.toNat = 2 ^ bits) ∧
      found.physicalAddress.raw.toNat % found.pageSize.toNat =
        va.raw.toNat % found.pageSize.toNat
  uniform : ∀ memory root va other found,
    translator.translate memory root va = .ok found →
    va.raw.toNat / found.pageSize.toNat =
      other.raw.toNat / found.pageSize.toNat →
      ∃ physical, translator.translate memory root other =
          .ok ⟨⟨physical⟩, found.pageSize⟩ ∧
        physical.toNat =
          found.physicalAddress.raw.toNat -
            va.raw.toNat % found.pageSize.toNat +
            other.raw.toNat % found.pageSize.toNat
  faults : ∀ memory root va error,
    translator.translate memory root va = .error error →
      ∃ baseError,
        translator.translate memory root ⟨pageBase va.raw⟩ =
          .error baseError ∧
        SameFault error baseError

theorem pageBase_toNat (address : UInt64) :
    (pageBase address).toNat = address.toNat / 4096 * 4096 :=
  and_not_low_mask_toNat address 0xfff 12 (by decide) (by decide)

theorem pageBase_div (address : UInt64) :
    (pageBase address).toNat / 4096 = address.toNat / 4096 := by
  rw [pageBase_toNat]
  omega

/-! Walks as radix searches. A fault is recorded without the address it will be
reported for, and a leaf without the offset into it. -/

inductive Fault where
  | notPresent (level : UInt8)
  | other (error : VmiError)

def Fault.report (va : UInt64) : Fault → VmiError
  | .notPresent level => .pageNotPresent va level
  | .other error => error

abbrev WalkLevel := RadixWalk.Level UInt64 UInt64 UInt64 Fault

/-- The table slot that a search reads. -/
def fetchEntry (memory : MemoryAccess) (table : UInt64) (index : Nat) :
    Except Fault UInt64 :=
  match readScalar UInt64 memory ⟨UInt64.ofNat (table.toNat + index * 8)⟩
      .littleEndian with
  | .ok entry => .ok entry
  | .error error => .error (.other error)

/-- The eight bytes at an address, read as a little-endian number. -/
def EntryAt (memory : MemoryAccess) (address : Gpa) (entry : UInt64) : Prop :=
  ∃ bytes, memory.readInto address 8 = .ok bytes ∧
    entry.toNat = fromLe bytes.val

private theorem decodeScalar_entry {bytes : List UInt8}
    (sized : bytes.length = 8) :
    decodeScalar bytes .littleEndian =
      .ok (UInt64.ofNat (fromLe bytes)) := by
  unfold decodeScalar
  exact if_neg (not_not.mpr sized)

theorem readScalar_eq_ok {memory : MemoryAccess} {address : Gpa}
    {entry : UInt64} :
    readScalar UInt64 memory address .littleEndian = .ok entry ↔
      EntryAt memory address entry := by
  unfold readScalar EntryAt
  change (memory.readInto address 8 >>= _) = _ ↔ _
  cases memory.readInto address 8 with
  | error error => simp
  | ok bytes =>
      have bound : fromLe bytes.val < 2 ^ 64 := by
        have small := fromLe_lt bytes.val
        rw [bytes.property] at small
        exact small
      simp only [ok_bind, decodeScalar_entry bytes.property, Except.ok.injEq,
        exists_eq_left', ← UInt64.toNat_inj]
      rw [UInt64.toNat_ofNat_of_lt' bound, eq_comm]

/-- Only the memory itself can fail to read an entry. -/
theorem readScalar_eq_error {memory : MemoryAccess} {address : Gpa}
    {error : VmiError} :
    readScalar UInt64 memory address .littleEndian = .error error ↔
      memory.readInto address 8 = .error error := by
  unfold readScalar
  change (memory.readInto address 8 >>= _) = _ ↔ _
  cases memory.readInto address 8 with
  | error other => simp
  | ok bytes => simp [decodeScalar_entry bytes.property]

theorem fetchEntry_eq_ok {memory : MemoryAccess} {table entry : UInt64}
    {index : Nat} :
    fetchEntry memory table index = .ok entry ↔
      EntryAt memory ⟨UInt64.ofNat (table.toNat + index * 8)⟩ entry := by
  rw [← readScalar_eq_ok, fetchEntry]
  cases readScalar UInt64 memory ⟨UInt64.ofNat (table.toNat + index * 8)⟩
      .littleEndian with
  | error error => simp
  | ok found => simp

theorem fetchEntry_eq_error {memory : MemoryAccess} {table : UInt64}
    {index : Nat} {fault : Fault} :
    fetchEntry memory table index = .error fault ↔
      ∃ error, memory.readInto ⟨UInt64.ofNat (table.toNat + index * 8)⟩ 8 =
        .error error ∧ fault = .other error := by
  simp only [← readScalar_eq_error, fetchEntry]
  cases readScalar UInt64 memory ⟨UInt64.ofNat (table.toNat + index * 8)⟩
      .littleEndian with
  | error error => simp [eq_comm]
  | ok found => simp

/-- Neither step of the slot address computation overflows. -/
theorem slot_address (table index : UInt64)
    (tableBound : table.toNat < 2 ^ 52) (indexBound : index.toNat < 2 ^ 13) :
    ∃ offset, checkedMul index 8 = some offset ∧
      checkedAdd table offset =
        some (UInt64.ofNat (table.toNat + index.toNat * 8)) := by
  have offsetEq : (UInt64.ofNat (index.toNat * 8)).toNat = index.toNat * 8 :=
    UInt64.toNat_ofNat_of_lt' (by simp only [UInt64.size]; omega)
  refine ⟨UInt64.ofNat (index.toNat * 8), checkedMul_eq_some.mpr offsetEq,
    checkedAdd_eq_some.mpr ?_⟩
  simp only [unsigned_toNat_uint64, offsetEq]
  exact UInt64.toNat_ofNat_of_lt' (by simp only [UInt64.size]; omega)

def place (va : UInt64) (leaf : RadixWalk.Leaf UInt64) : Translation :=
  ⟨⟨UInt64.ofNat (leaf.found.toNat + va.toNat % 2 ^ leaf.shift)⟩,
    UInt64.ofNat (2 ^ leaf.shift)⟩

def conclude (va : UInt64) :
    Except Fault (RadixWalk.Leaf UInt64) → Result Translation
  | .ok leaf => .ok (place va leaf)
  | .error fault => .error (fault.report va)

/-- A frame is aligned to its leaf and the leaf stays inside the 64-bit space. -/
def FrameFits (frame : UInt64) (shift : Nat) : Prop :=
  2 ^ shift ∣ frame.toNat ∧ frame.toNat + 2 ^ shift ≤ 2 ^ 64 ∧ shift < 64

theorem frame_or_offset {frame va mask : UInt64} {shift : Nat}
    (fits : FrameFits frame shift) (maskEq : mask.toNat = 2 ^ shift - 1) :
    frame ||| (va &&& mask) =
      UInt64.ofNat (frame.toNat + va.toNat % 2 ^ shift) := by
  obtain ⟨aligned, within, _⟩ := fits
  have offsetBound : va.toNat % 2 ^ shift < 2 ^ shift :=
    Nat.mod_lt _ (Nat.two_pow_pos _)
  rw [← UInt64.toNat_inj, UInt64.toNat_or, and_low_mask_toNat va mask _ maskEq,
    nat_or_eq_add aligned offsetBound, UInt64.toNat_ofNat_of_lt' (by
      simp only [UInt64.size]
      omega)]

/-- Clearing the bits outside of `[shift, width)` leaves a fitting frame. -/
theorem frameFits_of_toNat {frame : UInt64} {value shift width : Nat}
    (ordered : shift ≤ width) (below : width < 64)
    (frameEq : frame.toNat = value % 2 ^ width / 2 ^ shift * 2 ^ shift) :
    FrameFits frame shift := by
  have positive : 0 < 2 ^ shift := Nat.two_pow_pos shift
  have remainder : value % 2 ^ width < 2 ^ width :=
    Nat.mod_lt _ (Nat.two_pow_pos width)
  have frameBound : frame.toNat ≤ value % 2 ^ width := by
    rw [frameEq]
    exact Nat.div_mul_le_self _ _
  have shiftBound : 2 ^ shift ≤ 2 ^ 63 :=
    Nat.pow_le_pow_right (by decide) (by omega)
  have widthBound : 2 ^ width ≤ 2 ^ 63 :=
    Nat.pow_le_pow_right (by decide) (by omega)
  refine ⟨⟨value % 2 ^ width / 2 ^ shift, ?_⟩, by omega, by omega⟩
  rw [frameEq, Nat.mul_comm]

/-- A translator that is a canonicality check in front of a radix search. -/
structure WalkForm (translator : AddressTranslator) where
  bits : UInt8
  size : Nat
  exhausted : Fault
  levels : List WalkLevel
  rootTable : TranslationRoot → UInt64
  rejected : ∀ memory root va, ¬ SignExtended va.raw bits.toNat →
    translator.translate memory root va =
      .error (.nonCanonicalAddress va.raw bits)
  accepted : ∀ memory root va, SignExtended va.raw bits.toNat →
    translator.translate memory root va =
      conclude va.raw (RadixWalk.resolve (fetchEntry memory) size exhausted
        va.raw.toNat levels (rootTable root))
  descending : levels.Pairwise fun upper lower => lower.shift ≤ upper.shift
  pageSized : ∀ level ∈ levels, 12 ≤ level.shift
  belowSign : ∀ level ∈ levels, level.shift ≤ bits.toNat - 1
  signAbovePage : 12 ≤ bits.toNat - 1
  frames : ∀ level ∈ levels, ∀ entry frame,
    level.decide entry = .leaf frame → FrameFits frame level.shift

namespace WalkForm

theorem place_toNat (va : UInt64) {leaf : RadixWalk.Leaf UInt64}
    (fits : FrameFits leaf.found leaf.shift) :
    (place va leaf).physicalAddress.raw.toNat =
        leaf.found.toNat + va.toNat % 2 ^ leaf.shift ∧
      (place va leaf).pageSize.toNat = 2 ^ leaf.shift := by
  obtain ⟨_, within, width⟩ := fits
  have offsetBound : va.toNat % 2 ^ leaf.shift < 2 ^ leaf.shift :=
    Nat.mod_lt _ (Nat.two_pow_pos _)
  have powerBound : 2 ^ leaf.shift < 2 ^ 64 :=
    Nat.pow_lt_pow_right (by decide) width
  exact ⟨UInt64.toNat_ofNat_of_lt' (by simp only [UInt64.size]; omega),
    UInt64.toNat_ofNat_of_lt' powerBound⟩

/-- A successful walk is a found leaf of a canonical address. -/
theorem translate_ok {translator : AddressTranslator}
    (form : WalkForm translator) {memory : MemoryAccess}
    {root : TranslationRoot} {va : Gva} {found : Translation}
    (translated : translator.translate memory root va = .ok found) :
    SignExtended va.raw form.bits.toNat ∧
      ∃ leaf, RadixWalk.resolve (fetchEntry memory) form.size form.exhausted
          va.raw.toNat form.levels (form.rootTable root) = .ok leaf ∧
        found = place va.raw leaf := by
  by_cases canonical : SignExtended va.raw form.bits.toNat
  · refine ⟨canonical, ?_⟩
    rw [form.accepted memory root va canonical] at translated
    cases resolved : RadixWalk.resolve (fetchEntry memory) form.size
        form.exhausted va.raw.toNat form.levels (form.rootTable root) with
    | error fault => simp [resolved, conclude] at translated
    | ok leaf =>
        simp only [resolved, conclude, Except.ok.injEq] at translated
        exact ⟨leaf, rfl, translated.symm⟩
  · rw [form.rejected memory root va canonical] at translated
    contradiction

private theorem sameFault_report (fault : Fault) (left right : UInt64) :
    SameFault (fault.report left) (fault.report right) := by
  cases fault with
  | notPresent level => exact ⟨right, rfl⟩
  | other error => cases error <;> simp [Fault.report, SameFault]

theorem mappingConsistent {translator : AddressTranslator}
    (form : WalkForm translator) : MappingConsistent translator where
  aligned := by
    intro memory root va found translated
    obtain ⟨_, leaf, resolved, rfl⟩ := form.translate_ok translated
    have fits := RadixWalk.resolve_leaf_property _ form.frames resolved
    have pageSized := RadixWalk.resolve_leaf_property (fun _ shift => 12 ≤ shift)
      (fun level inLevels _ _ _ => form.pageSized level inLevels) resolved
    obtain ⟨physicalEq, sizeEq⟩ := place_toNat va.raw fits
    refine ⟨⟨leaf.shift, pageSized, sizeEq⟩, ?_⟩
    obtain ⟨quotient, frameEq⟩ := fits.1
    rw [physicalEq, sizeEq, frameEq, Nat.mul_add_mod, Nat.mod_mod]
  uniform := by
    intro memory root va other found translated sameRange
    obtain ⟨canonical, leaf, resolved, rfl⟩ := form.translate_ok translated
    have fits := RadixWalk.resolve_leaf_property _ form.frames resolved
    obtain ⟨physicalEq, sizeEq⟩ := place_toNat va.raw fits
    obtain ⟨otherPhysicalEq, _⟩ := place_toNat other.raw fits
    rw [sizeEq] at sameRange
    obtain ⟨⟨level, inLevels, shiftEq⟩, again⟩ :=
      RadixWalk.resolve_leaf_congr form.descending resolved sameRange
    have otherCanonical : SignExtended other.raw form.bits.toNat :=
      (signExtended_congr _ (shiftEq ▸ form.belowSign level inLevels)
        sameRange).mp canonical
    refine ⟨(place other.raw leaf).physicalAddress.raw, ?_, ?_⟩
    · rw [form.accepted memory root other otherCanonical, again]
      rfl
    · rw [physicalEq, sizeEq, otherPhysicalEq, Nat.add_sub_cancel]
  faults := by
    intro memory root va error translated
    have samePage :
        va.raw.toNat / 2 ^ 12 = (pageBase va.raw).toNat / 2 ^ 12 :=
      (pageBase_div va.raw).symm
    have canonicalIff := signExtended_congr form.bits.toNat
      form.signAbovePage samePage
    by_cases canonical : SignExtended va.raw form.bits.toNat
    · rw [form.accepted memory root va canonical,
        RadixWalk.resolve_congr _ form.pageSized samePage] at translated
      rw [form.accepted memory root ⟨pageBase va.raw⟩
        (canonicalIff.mp canonical)]
      cases resolved : RadixWalk.resolve (fetchEntry memory) form.size
          form.exhausted (pageBase va.raw).toNat form.levels
          (form.rootTable root) with
      | ok leaf => simp [resolved, conclude] at translated
      | error fault =>
          simp only [resolved, conclude, Except.error.injEq] at translated
          subst error
          exact ⟨_, rfl, sameFault_report fault _ _⟩
    · rw [form.rejected memory root va canonical] at translated
      cases translated
      exact ⟨_, form.rejected memory root ⟨pageBase va.raw⟩
        (fun base => canonical (canonicalIff.mpr base)), _, rfl⟩

end WalkForm

end LibVmi.Arch
