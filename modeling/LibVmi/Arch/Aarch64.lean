import LibVmi.Arch.Mapping

namespace LibVmi.Arch.Aarch64

open Data

def valid : UInt64 := 1

def tableOrPage : UInt64 := (1 : UInt64) <<< 1

def physicalAddressMask : UInt64 := 0x0000ffffffffffff

def lowMask (bits : UInt8) : Option UInt64 :=
  (checkedShl 1 bits.toNat).bind fun value => checkedSub value 1

def isCanonical (address : UInt64) (bits : UInt8) : Bool :=
  canonicalBy (lowMask bits) address bits

inductive TranslationGranule where
  | kib4
  | kib16
  | kib64
  deriving DecidableEq, Repr

namespace TranslationGranule

def pageShift : TranslationGranule → UInt8
  | .kib4 => 12
  | .kib16 => 14
  | .kib64 => 16

def indexBits : TranslationGranule → UInt8
  | .kib4 => 9
  | .kib16 => 11
  | .kib64 => 13

def maximumLevels : TranslationGranule → UInt8
  | .kib4 => 4
  | .kib16 => 4
  | .kib64 => 3

theorem shape (granule : TranslationGranule) :
    (granule.pageShift.toNat = 12 ∧ granule.indexBits.toNat = 9) ∨
      (granule.pageShift.toNat = 14 ∧ granule.indexBits.toNat = 11) ∨
      (granule.pageShift.toNat = 16 ∧ granule.indexBits.toNat = 13) := by
  cases granule <;> decide

/-- The derived `Debug` rendering. -/
def debug : TranslationGranule → String
  | .kib4 => "KiB4"
  | .kib16 => "KiB16"
  | .kib64 => "KiB64"

end TranslationGranule

structure Aarch64Translator where
  granule : TranslationGranule
  addressBits : UInt8
  deriving DecidableEq, Repr

namespace Aarch64Translator

def new (granule : TranslationGranule) (addressBits : UInt8) :
    Result Aarch64Translator := do
  let pageShift := granule.pageShift
  let maximumBits ← okOr
    ((checkedMul granule.indexBits granule.maximumLevels).bind
      fun bits => checkedAdd pageShift bits)
    (.backend "AArch64 maximum address size overflow")
  rejectIf (addressBits ≤ pageShift ∨ addressBits > maximumBits ∨
      addressBits > 48)
    (.backend ("invalid AArch64 address size " ++ toString addressBits.toNat ++
      " for " ++ granule.debug ++ " granule"))
  return ⟨granule, addressBits⟩

def cacheTag (translator : Aarch64Translator) : UInt64 :=
  let granule : UInt64 := match translator.granule with
    | .kib4 => 4
    | .kib16 => 16
    | .kib64 => 64
  (0x4136340000000000 : UInt64) ||| (granule <<< 8) |||
    UInt64.ofNat translator.addressBits.toNat

/-- Integer division rounded up. -/
def divCeil (left right : UInt8) : UInt8 :=
  if left % right = 0 then left / right else left / right + 1

/-- What the loop of `translate` reads besides the loop variables. -/
structure Geometry where
  pageShift : UInt8
  indexBits : UInt8
  levelCount : UInt8
  firstLevel : UInt8
  indexMask : UInt64
  pageMask : UInt64

/-- The loop of `translate`; `left` counts the ordinals still to run. -/
def walk (memory : MemoryAccess) (va : UInt64) (geometry : Geometry) :
    (left : Nat) → (ordinal : UInt8) → (table : UInt64) → Result Translation
  | 0, _, _ =>
      .error (.backend "AArch64 translation completed without a page or block")
  | left + 1, ordinal, table => do
      let level ← okOr (checkedAdd geometry.firstLevel ordinal)
        (.backend "AArch64 translation level overflow")
      let remainingLevels ← okOr
        ((checkedSub geometry.levelCount ordinal).bind
          fun remaining => checkedSub remaining 1)
        (.backend "AArch64 remaining level underflow")
      let entryShift ← okOr
        ((checkedMul remainingLevels geometry.indexBits).bind
          fun shift => checkedAdd geometry.pageShift shift)
        (.backend "AArch64 entry shift overflow")
      let index := (va >>> UInt64.ofNat entryShift.toNat) &&& geometry.indexMask
      let entryOffset ← okOr (checkedMul index 8)
        (.backend "AArch64 page-table entry offset overflow")
      let entryAddress ← okOr (checkedAdd table entryOffset)
        (.backend "AArch64 page-table entry address overflow")
      let entry ← readScalar UInt64 memory ⟨entryAddress⟩ .littleEndian
      if entry &&& valid = 0 then
        .error (.pageNotPresent va level)
      else if checkedAdd ordinal 1 = some geometry.levelCount then
        if entry &&& tableOrPage = 0 then
          .error (.invalidPageTableEntry entry level)
        else do
          let pageSize ← okOr (checkedShl 1 geometry.pageShift.toNat)
            (.backend "AArch64 page size overflow")
          let pageOffsetMask ← okOr (checkedSub pageSize 1)
            (.backend "AArch64 page mask underflow")
          .ok ⟨⟨(entry &&& physicalAddressMask &&& ~~~pageOffsetMask) |||
            (va &&& pageOffsetMask)⟩, pageSize⟩
      else if entry &&& tableOrPage ≠ 0 then
        walk memory va geometry left (ordinal + 1)
          (entry &&& physicalAddressMask &&& ~~~geometry.pageMask)
      else if level = 0 then
        .error (.invalidPageTableEntry entry level)
      else do
        let blockSize ← okOr (checkedShl 1 entryShift.toNat)
          (.backend "AArch64 block size overflow")
        let blockOffsetMask ← okOr (checkedSub blockSize 1)
          (.backend "AArch64 block mask underflow")
        .ok ⟨⟨(entry &&& physicalAddressMask &&& ~~~blockOffsetMask) |||
          (va &&& blockOffsetMask)⟩, blockSize⟩

def translate (translator : Aarch64Translator) (memory : MemoryAccess)
    (root : TranslationRoot) (address : Gva) : Result Translation :=
  let va := address.raw
  if isCanonical va translator.addressBits then do
    let pageShift := translator.granule.pageShift
    let indexBits := translator.granule.indexBits
    let translatedBits ← okOr (checkedSub translator.addressBits pageShift)
      (.backend "AArch64 address size underflow")
    let levelCount := divCeil translatedBits indexBits
    let firstLevel ← okOr (checkedSub 4 levelCount)
      (.backend "AArch64 translation level underflow")
    let indexMask ← okOr (lowMask indexBits)
      (.backend "AArch64 index mask overflow")
    let pageMask ← okOr (lowMask pageShift)
      (.backend "AArch64 page mask overflow")
    walk memory va ⟨pageShift, indexBits, levelCount, firstLevel, indexMask,
        pageMask⟩ levelCount.toNat 0
      (root.raw &&& physicalAddressMask &&& ~~~pageMask)
  else
    .error (.nonCanonicalAddress va translator.addressBits)

/-- The numbers that `translate` prepares for its loop. -/
def geometryOf (translator : Aarch64Translator) : Result Geometry := do
  let pageShift := translator.granule.pageShift
  let indexBits := translator.granule.indexBits
  let translatedBits ← okOr (checkedSub translator.addressBits pageShift)
    (.backend "AArch64 address size underflow")
  let levelCount := divCeil translatedBits indexBits
  let firstLevel ← okOr (checkedSub 4 levelCount)
    (.backend "AArch64 translation level underflow")
  let indexMask ← okOr (lowMask indexBits)
    (.backend "AArch64 index mask overflow")
  let pageMask ← okOr (lowMask pageShift)
    (.backend "AArch64 page mask overflow")
  return ⟨pageShift, indexBits, levelCount, firstLevel, indexMask, pageMask⟩

theorem translate_eq (translator : Aarch64Translator) (memory : MemoryAccess)
    (root : TranslationRoot) (address : Gva) :
    translator.translate memory root address =
      if isCanonical address.raw translator.addressBits then do
        let geometry ← translator.geometryOf
        walk memory address.raw geometry geometry.levelCount.toNat 0
          (root.raw &&& physicalAddressMask &&& ~~~geometry.pageMask)
      else
        .error (.nonCanonicalAddress address.raw translator.addressBits) := by
  simp only [translate, geometryOf, bind_assoc, pure_bind]

def toAddressTranslator (translator : Aarch64Translator) :
    AddressTranslator where
  cacheTag := translator.cacheTag
  translate := translator.translate

/-! The loop as a radix search. `left` levels remain below the current one,
whose architectural number is then `3 - left`. -/

def frameOf (entry : UInt64) (shift : Nat) : UInt64 :=
  UInt64.ofNat (entry.toNat % 2 ^ 48 / 2 ^ shift * 2 ^ shift)

def decideEntry (pageMask : UInt64) (left shift : Nat) (entry : UInt64) :
    RadixWalk.Decision UInt64 UInt64 Fault :=
  let level := UInt8.ofNat (3 - left)
  if entry &&& valid = 0 then
    .fail (.notPresent level)
  else if left = 0 then
    if entry &&& tableOrPage = 0 then
      .fail (.other (.invalidPageTableEntry entry level))
    else
      .leaf (frameOf entry shift)
  else if entry &&& tableOrPage ≠ 0 then
    .descend (entry &&& physicalAddressMask &&& ~~~pageMask)
  else if level = 0 then
    .fail (.other (.invalidPageTableEntry entry level))
  else
    .leaf (frameOf entry shift)

def levelsFrom (pageShift indexBits : Nat) (pageMask : UInt64) :
    (count : Nat) → List WalkLevel
  | 0 => []
  | left + 1 =>
      ⟨pageShift + left * indexBits,
          decideEntry pageMask left (pageShift + left * indexBits)⟩ ::
        levelsFrom pageShift indexBits pageMask left

/-- The arithmetic that an accepted translator's geometry satisfies. -/
structure Geometry.Sound (geometry : Geometry) : Prop where
  page : 12 ≤ geometry.pageShift.toNat
  index : geometry.indexBits.toNat ≤ 13
  levels : geometry.firstLevel.toNat + geometry.levelCount.toNat = 4
  reach : geometry.pageShift.toNat +
    (geometry.levelCount.toNat - 1) * geometry.indexBits.toNat ≤ 47
  indexMaskEq : geometry.indexMask.toNat = 2 ^ geometry.indexBits.toNat - 1
  pageMaskEq : geometry.pageMask.toNat = 2 ^ geometry.pageShift.toNat - 1

theorem frameOf_toNat (entry : UInt64) (shift : Nat) :
    (frameOf entry shift).toNat =
      entry.toNat % 2 ^ 48 / 2 ^ shift * 2 ^ shift := by
  have bound := Nat.div_mul_le_self (entry.toNat % 2 ^ 48) (2 ^ shift)
  exact UInt64.toNat_ofNat_of_lt' (by simp only [UInt64.size]; omega)

private theorem frameOf_fits (entry : UInt64) {shift : Nat}
    (below : shift ≤ 47) : FrameFits (frameOf entry shift) shift :=
  frameFits_of_toNat (by omega) (by decide) (frameOf_toNat entry shift)

theorem masked_toNat (value mask : UInt64) {shift : Nat}
    (below : shift ≤ 64) (maskEq : mask.toNat = 2 ^ shift - 1) :
    (value &&& physicalAddressMask &&& ~~~mask).toNat =
      value.toNat % 2 ^ 48 / 2 ^ shift * 2 ^ shift := by
  rw [and_not_low_mask_toNat _ mask _ below maskEq,
    and_low_mask_toNat value physicalAddressMask 48 (by decide)]

/-- A page or block result of the source is the placed leaf of the search. -/
private theorem placed_leaf (va entry : UInt64) {shift : Nat}
    (below : shift ≤ 47) :
    ∃ size mask, checkedShl 1 shift = some size ∧
      checkedSub size 1 = some mask ∧
      conclude va (.ok ⟨frameOf entry shift, shift⟩) =
        .ok ⟨⟨(entry &&& physicalAddressMask &&& ~~~mask) |||
          (va &&& mask)⟩, size⟩ := by
  obtain ⟨size, shifted, sizeEq⟩ := one_checkedShl shift (by omega)
  obtain ⟨mask, subtracted, maskEq⟩ := checkedSub_one size (by
    rw [sizeEq]
    exact Nat.two_pow_pos shift)
  rw [sizeEq] at maskEq
  have powerBound : 2 ^ shift < 2 ^ 64 :=
    Nat.pow_lt_pow_right (by decide) (by omega)
  have frameEq :
      entry &&& physicalAddressMask &&& ~~~mask = frameOf entry shift := by
    rw [← UInt64.toNat_inj, frameOf_toNat,
      masked_toNat entry mask (by omega) maskEq]
  have sizeWord : size = UInt64.ofNat (2 ^ shift) := by
    rw [← UInt64.toNat_inj, sizeEq, UInt64.toNat_ofNat_of_lt' powerBound]
  refine ⟨size, mask, shifted, subtracted, ?_⟩
  rw [frameEq, frame_or_offset (frameOf_fits entry below) maskEq, sizeWord]
  rfl

theorem small_toNat (value : Nat) (bound : value < 256) :
    (UInt8.ofNat value).toNat = value :=
  UInt8.toNat_ofNat_of_lt' bound

/-- The numbers of an iteration that has `left` more below it. -/
structure Iteration (geometry : Geometry) (ordinal : UInt8)
    (left : Nat) : Prop where
  level : checkedAdd geometry.firstLevel ordinal =
    some (UInt8.ofNat (3 - left))
  count : checkedSub geometry.levelCount ordinal =
    some (UInt8.ofNat (left + 1))
  remaining : checkedSub (UInt8.ofNat (left + 1)) 1 = some (UInt8.ofNat left)
  product : checkedMul (UInt8.ofNat left) geometry.indexBits =
    some (UInt8.ofNat (left * geometry.indexBits.toNat))
  shift : checkedAdd geometry.pageShift
      (UInt8.ofNat (left * geometry.indexBits.toNat)) =
    some (UInt8.ofNat (geometry.pageShift.toNat +
      left * geometry.indexBits.toNat))
  last : checkedAdd ordinal 1 = some geometry.levelCount ↔ left = 0

theorem Geometry.Sound.shift_le {geometry : Geometry}
    (sound : geometry.Sound) (left : Nat)
    (below : left + 1 ≤ geometry.levelCount.toNat) :
    geometry.pageShift.toNat + left * geometry.indexBits.toNat ≤ 47 :=
  le_trans (Nat.add_le_add_left (Nat.mul_le_mul_right _ (by omega)) _)
    sound.reach

theorem Geometry.Sound.iteration {geometry : Geometry}
    (sound : geometry.Sound) {left : Nat} {ordinal : UInt8}
    (counted : ordinal.toNat + (left + 1) = geometry.levelCount.toNat) :
    Iteration geometry ordinal left := by
  have levels := sound.levels
  have reach := sound.shift_le left (by omega)
  constructor
  · rw [checkedAdd_eq_some]
    simp only [unsigned_toNat_uint8]
    rw [small_toNat _ (by omega)]
    omega
  · rw [checkedSub_eq_some]
    simp only [unsigned_toNat_uint8]
    rw [small_toNat _ (by omega)]
    omega
  · rw [checkedSub_eq_some]
    simp only [unsigned_toNat_uint8, UInt8.toNat_one]
    rw [small_toNat _ (by omega), small_toNat _ (by omega)]
    omega
  · rw [checkedMul_eq_some]
    simp only [unsigned_toNat_uint8]
    rw [small_toNat _ (by omega), small_toNat _ (by omega)]
  · rw [checkedAdd_eq_some]
    simp only [unsigned_toNat_uint8]
    rw [small_toNat _ (by omega), small_toNat _ (by omega)]
  · rw [checkedAdd_eq_some]
    simp only [unsigned_toNat_uint8, UInt8.toNat_one]
    omega

theorem Geometry.Sound.index_toNat {geometry : Geometry}
    (sound : geometry.Sound) (va : UInt64) {shift : Nat} (below : shift ≤ 47) :
    ((va >>> UInt64.ofNat shift) &&& geometry.indexMask).toNat =
      va.toNat / 2 ^ shift % 2 ^ geometry.indexBits.toNat := by
  rw [and_low_mask_toNat _ _ _ sound.indexMaskEq,
    shiftRight_toNat va (by omega)]

/-- The loop reads the slots, and decides, as the radix search does. -/
theorem walk_eq (memory : MemoryAccess) (va : UInt64) {geometry : Geometry}
    (sound : geometry.Sound) {count : Nat} {ordinal : UInt8} {table : UInt64}
    (tableBound : table.toNat < 2 ^ 48)
    (counted : ordinal.toNat + count = geometry.levelCount.toNat) :
    walk memory va geometry count ordinal table =
      conclude va (RadixWalk.resolve (fetchEntry memory)
        (2 ^ geometry.indexBits.toNat)
        (.other (.backend
          "AArch64 translation completed without a page or block"))
        va.toNat
        (levelsFrom geometry.pageShift.toNat geometry.indexBits.toNat
          geometry.pageMask count) table) := by
  induction count generalizing ordinal table with
  | zero => rfl
  | succ left induction =>
      have numbers := sound.iteration counted
      have reach := sound.shift_le left (by omega)
      have shiftToNat := small_toNat
        (geometry.pageShift.toNat + left * geometry.indexBits.toNat) (by omega)
      have indexEq := sound.index_toNat va reach
      have indexBound := Nat.mod_lt
        (va.toNat / 2 ^ (geometry.pageShift.toNat +
          left * geometry.indexBits.toNat))
        (Nat.two_pow_pos geometry.indexBits.toNat)
      have sizeBound : 2 ^ geometry.indexBits.toNat ≤ 2 ^ 13 :=
        Nat.pow_le_pow_right (by decide) sound.index
      obtain ⟨offset, offsetComputed, addressComputed⟩ :=
        slot_address table
          ((va >>> UInt64.ofNat (geometry.pageShift.toNat +
              left * geometry.indexBits.toNat)) &&& geometry.indexMask)
          (by omega) (by rw [indexEq]; omega)
      simp only [walk, levelsFrom, RadixWalk.resolve, fetchEntry,
        numbers.level, numbers.count, Option.bind_some, numbers.remaining,
        numbers.product, numbers.shift, okOr_some, ok_bind, shiftToNat,
        offsetComputed, addressComputed, indexEq, numbers.last]
      cases readScalar UInt64 memory _ .littleEndian with
      | error error => rfl
      | ok entry =>
          obtain ⟨size, mask, sizeComputed, maskComputed, placed⟩ :=
            placed_leaf va entry reach
          simp only [ok_bind, decideEntry]
          split_ifs with absent last page table' top
          · rfl
          · rfl
          · subst left
            simp only [Nat.zero_mul, Nat.add_zero] at sizeComputed placed ⊢
            simp only [sizeComputed, okOr_some, ok_bind, maskComputed, placed]
          · have levels := sound.levels
            apply induction
            · rw [masked_toNat entry geometry.pageMask (by omega)
                sound.pageMaskEq]
              have := Nat.div_mul_le_self (entry.toNat % 2 ^ 48)
                (2 ^ geometry.pageShift.toNat)
              omega
            · rw [UInt8.toNat_add, UInt8.toNat_one]
              omega
          · rfl
          · simp only [sizeComputed, okOr_some, ok_bind, maskComputed, placed]

theorem new_eq_ok {granule : TranslationGranule} {addressBits : UInt8}
    {translator : Aarch64Translator}
    (accepted : new granule addressBits = .ok translator) :
    translator = ⟨granule, addressBits⟩ ∧
      granule.pageShift.toNat < addressBits.toNat ∧
      addressBits.toNat ≤ 48 := by
  unfold new at accepted
  obtain ⟨maximumBits, _, accepted⟩ := bind_eq_ok.mp accepted
  obtain ⟨_, admitted, created⟩ := bind_eq_ok.mp accepted
  rw [rejectIf_eq_ok] at admitted
  simp only [not_or, gt_iff_lt, UInt8.lt_iff_toNat_lt, UInt8.le_iff_toNat_le,
    Nat.not_le, Nat.not_lt] at admitted
  exact ⟨(Except.ok.inj created).symm, admitted.1, admitted.2.2⟩

theorem divCeil_toNat {left : UInt8} (right : UInt8)
    (small : left.toNat < 255) :
    (divCeil left right).toNat =
      if left.toNat % right.toNat = 0 then left.toNat / right.toNat
      else left.toNat / right.toNat + 1 := by
  have quotientBound := Nat.div_le_self left.toNat right.toNat
  have remainderIff : left % right = 0 ↔ left.toNat % right.toNat = 0 := by
    rw [← UInt8.toNat_inj, UInt8.toNat_mod, UInt8.toNat_zero]
  unfold divCeil
  simp only [remainderIff]
  split
  · exact UInt8.toNat_div ..
  · rw [UInt8.toNat_add, UInt8.toNat_div, UInt8.toNat_one]
    generalize left.toNat / right.toNat = quotient at *
    omega

/-- Every accepted address size gives a sound geometry whose first level lies
below the sign bit. -/
theorem levelCount_bounds (granule : TranslationGranule)
    {addressBits translatedBits : UInt8}
    (translated : translatedBits.toNat =
      addressBits.toNat - granule.pageShift.toNat)
    (above : granule.pageShift.toNat < addressBits.toNat)
    (below : addressBits.toNat ≤ 48) :
    1 ≤ (divCeil translatedBits granule.indexBits).toNat ∧
      (divCeil translatedBits granule.indexBits).toNat ≤ 4 ∧
      granule.pageShift.toNat +
        ((divCeil translatedBits granule.indexBits).toNat - 1) *
          granule.indexBits.toNat < addressBits.toNat ∧
      addressBits.toNat ≤ granule.pageShift.toNat +
        (divCeil translatedBits granule.indexBits).toNat *
          granule.indexBits.toNat := by
  have countEq := divCeil_toNat granule.indexBits
    (show translatedBits.toNat < 255 by omega)
  rw [translated] at countEq
  generalize (divCeil translatedBits granule.indexBits).toNat = count at *
  rcases granule.shape with ⟨page, index⟩ | ⟨page, index⟩ | ⟨page, index⟩ <;>
    rw [page, index] at countEq <;>
    rw [page, index] <;>
    rw [page] at above <;>
    split_ifs at countEq <;>
    omega

theorem isCanonical_iff {address : UInt64} {bits : UInt8}
    (positive : 0 < bits.toNat) (below : bits.toNat < 64) :
    isCanonical address bits = true ↔ SignExtended address bits.toNat := by
  obtain ⟨mask, computed, maskEq⟩ := low_mask_computed _ below
  unfold isCanonical lowMask
  rw [computed]
  exact canonicalBy_iff positive below maskEq

/-- An accepted translator has a sound geometry, and its levels cover the
address size without one to spare. -/
theorem geometryOf_ok {granule : TranslationGranule} {addressBits : UInt8}
    (above : granule.pageShift.toNat < addressBits.toNat)
    (below : addressBits.toNat ≤ 48) :
    ∃ geometry : Geometry, geometryOf ⟨granule, addressBits⟩ = .ok geometry ∧
      geometry.Sound ∧ geometry.pageShift = granule.pageShift ∧
      geometry.indexBits = granule.indexBits ∧
      1 ≤ geometry.levelCount.toNat ∧
      geometry.pageShift.toNat + (geometry.levelCount.toNat - 1) *
        geometry.indexBits.toNat < addressBits.toNat ∧
      addressBits.toNat ≤ geometry.pageShift.toNat +
        geometry.levelCount.toNat * geometry.indexBits.toNat := by
  have shape := granule.shape
  have translatedToNat := small_toNat
    (addressBits.toNat - granule.pageShift.toNat) (by omega)
  obtain ⟨positive, few, reach, covers⟩ :=
    levelCount_bounds granule translatedToNat above below
  obtain ⟨indexMask, indexComputed, indexMaskEq⟩ :=
    low_mask_computed granule.indexBits.toNat (by omega)
  obtain ⟨pageMask, pageComputed, pageMaskEq⟩ :=
    low_mask_computed granule.pageShift.toNat (by omega)
  have translatedEq : checkedSub addressBits granule.pageShift =
      some (UInt8.ofNat (addressBits.toNat - granule.pageShift.toNat)) :=
    checkedSub_eq_some.mpr (by
      simp only [unsigned_toNat_uint8, translatedToNat]
      omega)
  generalize countEq : divCeil
    (UInt8.ofNat (addressBits.toNat - granule.pageShift.toNat))
    granule.indexBits = levelCount at positive few reach covers
  have firstToNat := small_toNat (4 - levelCount.toNat) (by omega)
  have firstEq : checkedSub 4 levelCount =
      some (UInt8.ofNat (4 - levelCount.toNat)) :=
    checkedSub_eq_some.mpr (by
      simp only [unsigned_toNat_uint8, firstToNat]
      change 4 = levelCount.toNat + (4 - levelCount.toNat)
      omega)
  refine ⟨⟨granule.pageShift, granule.indexBits, levelCount,
    UInt8.ofNat (4 - levelCount.toNat), indexMask, pageMask⟩, ?_, ?_, rfl, rfl,
    positive, reach, covers⟩
  · simp only [geometryOf, lowMask, translatedEq, okOr_some, ok_bind, countEq,
      firstEq, indexComputed, pageComputed, pure_eq_ok]
  · exact {
      page := by simp only; omega
      index := by simp only; omega
      levels := by simp only [firstToNat]; omega
      reach := by simp only; omega
      indexMaskEq := indexMaskEq
      pageMaskEq := pageMaskEq }

theorem levelsFrom_bounds {pageShift indexBits : Nat}
    {pageMask : UInt64} {count : Nat} :
    ∀ level ∈ levelsFrom pageShift indexBits pageMask count,
      pageShift ≤ level.shift ∧
        level.shift ≤ pageShift + (count - 1) * indexBits := by
  induction count with
  | zero => simp [levelsFrom]
  | succ left induction =>
      intro level inLevels
      simp only [levelsFrom, List.mem_cons] at inLevels
      rcases inLevels with rfl | inRest
      · simp
      · obtain ⟨lower, upper⟩ := induction level inRest
        have monotone : (left - 1) * indexBits ≤ left * indexBits :=
          Nat.mul_le_mul_right _ (Nat.sub_le left 1)
        simp only [Nat.add_sub_cancel]
        omega

private theorem levelsFrom_descending {pageShift indexBits : Nat}
    {pageMask : UInt64} {count : Nat} :
    (levelsFrom pageShift indexBits pageMask count).Pairwise
      fun upper lower => lower.shift ≤ upper.shift := by
  induction count with
  | zero => exact List.Pairwise.nil
  | succ left induction =>
      refine List.Pairwise.cons ?_ induction
      intro lower inRest
      have upper := (levelsFrom_bounds lower inRest).2
      have monotone : (left - 1) * indexBits ≤ left * indexBits :=
        Nat.mul_le_mul_right _ (Nat.sub_le left 1)
      simp only
      omega

private theorem levelsFrom_frames {pageShift indexBits : Nat}
    {pageMask : UInt64} {count : Nat}
    (reach : pageShift + (count - 1) * indexBits ≤ 47) :
    ∀ level ∈ levelsFrom pageShift indexBits pageMask count,
      ∀ entry frame, level.decide entry = .leaf frame →
        FrameFits frame level.shift := by
  intro level inLevels entry frame decided
  have bound := (levelsFrom_bounds level inLevels).2
  suffices frame = frameOf entry level.shift by
    rw [this]
    exact frameOf_fits entry (by omega)
  clear reach bound
  induction count with
  | zero => simp [levelsFrom] at inLevels
  | succ left induction =>
      simp only [levelsFrom, List.mem_cons] at inLevels
      rcases inLevels with rfl | inRest
      · simp only [decideEntry] at decided
        split_ifs at decided <;> cases decided <;> rfl
      · exact induction inRest

/-- Every translator that `new` accepts is a radix walk. -/
theorem walkForm_of_new {granule : TranslationGranule} {addressBits : UInt8}
    {translator : Aarch64Translator}
    (accepted : new granule addressBits = .ok translator) :
    Nonempty (WalkForm translator.toAddressTranslator) := by
  obtain ⟨rfl, above, below⟩ := new_eq_ok accepted
  obtain ⟨geometry, computed, sound, pageEq, _, _, reach, _⟩ :=
    geometryOf_ok above below
  have shape := granule.shape
  exact ⟨{
    bits := addressBits
    size := 2 ^ geometry.indexBits.toNat
    exhausted := .other (.backend
      "AArch64 translation completed without a page or block")
    levels := levelsFrom geometry.pageShift.toNat geometry.indexBits.toNat
      geometry.pageMask geometry.levelCount.toNat
    rootTable := fun root =>
      root.raw &&& physicalAddressMask &&& ~~~geometry.pageMask
    rejected := by
      intro memory root va noncanonical
      simp only [toAddressTranslator, translate_eq]
      rw [if_neg (fun canonical => noncanonical
        ((isCanonical_iff (by omega) (by omega)).mp canonical))]
    accepted := by
      intro memory root va canonical
      have rootBound := Nat.div_mul_le_self (root.raw.toNat % 2 ^ 48)
        (2 ^ geometry.pageShift.toNat)
      have tableEq := masked_toNat root.raw geometry.pageMask
        (by rw [pageEq]; omega) sound.pageMaskEq
      simp only [toAddressTranslator, translate_eq]
      rw [if_pos ((isCanonical_iff (by omega) (by omega)).mpr canonical),
        computed, ok_bind]
      exact walk_eq memory va.raw sound (by rw [tableEq]; omega)
        (by rw [UInt8.toNat_zero, Nat.zero_add])
    descending := levelsFrom_descending
    pageSized := fun level inLevels =>
      le_trans sound.page (levelsFrom_bounds level inLevels).1
    belowSign := by
      intro level inLevels
      have := (levelsFrom_bounds level inLevels).2
      omega
    signAbovePage := by omega
    frames := levelsFrom_frames (by omega) }⟩

end Aarch64Translator

end LibVmi.Arch.Aarch64
