import LibVmi.Arch.Aarch64

namespace LibVmi.Arch.Aarch64.Aarch64Translator

open Data

/-! Which descriptors the loop of `translate` reads, in order. -/

/-- The entry address that one round of the loop computes. -/
def entryAddress (va : UInt64) (geometry : Geometry) (ordinal : UInt8)
    (table : UInt64) : Option UInt64 := do
  let _ ← checkedAdd geometry.firstLevel ordinal
  let remaining ← checkedSub geometry.levelCount ordinal
  let remainingLevels ← checkedSub remaining 1
  let shift ← checkedMul remainingLevels geometry.indexBits
  let entryShift ← checkedAdd geometry.pageShift shift
  let index := (va >>> UInt64.ofNat entryShift.toNat) &&& geometry.indexMask
  let entryOffset ← checkedMul index 8
  checkedAdd table entryOffset

def walkReads (memory : MemoryAccess) (va : UInt64) (geometry : Geometry) :
    (left : Nat) → (ordinal : UInt8) → (table : UInt64) → List Gpa
  | 0, _, _ => []
  | left + 1, ordinal, table =>
      match entryAddress va geometry ordinal table with
      | none => []
      | some address =>
          ⟨address⟩ ::
            match readScalar UInt64 memory ⟨address⟩ .littleEndian with
            | .error _ => []
            | .ok entry =>
                if entry &&& valid = 0 then
                  []
                else if checkedAdd ordinal 1 = some geometry.levelCount then
                  []
                else if entry &&& tableOrPage ≠ 0 then
                  walkReads memory va geometry left (ordinal + 1)
                    (entry &&& physicalAddressMask &&& ~~~geometry.pageMask)
                else
                  []

def translateReads (translator : Aarch64Translator) (memory : MemoryAccess)
    (root : TranslationRoot) (address : Gva) : List Gpa :=
  if isCanonical address.raw translator.addressBits then
    match translator.geometryOf with
    | .error _ => []
    | .ok geometry =>
        walkReads memory address.raw geometry geometry.levelCount.toNat 0
          (root.raw &&& physicalAddressMask &&& ~~~geometry.pageMask)
  else
    []

/-- The slot of a table that a search looks into. -/
def slotOf (visit : UInt64 × Nat) : Gpa :=
  ⟨UInt64.ofNat (visit.1.toNat + visit.2 * 8)⟩

/-! The tables that an accepted translator searches. -/

namespace Tables

def levels (translator : Aarch64Translator) : Nat :=
  (translator.addressBits.toNat - translator.granule.pageShift.toNat +
    translator.granule.indexBits.toNat - 1) /
      translator.granule.indexBits.toNat

def lookups (translator : Aarch64Translator) : List WalkLevel :=
  levelsFrom translator.granule.pageShift.toNat
    translator.granule.indexBits.toNat
    (UInt64.ofNat (2 ^ translator.granule.pageShift.toNat - 1))
    (levels translator)

def rootTable (translator : Aarch64Translator) (root : TranslationRoot) :
    UInt64 :=
  frameOf root.raw translator.granule.pageShift.toNat

end Tables

theorem entryAddress_eq (va : UInt64) {geometry : Geometry}
    (sound : geometry.Sound) {left : Nat} {ordinal : UInt8} {table : UInt64}
    (tableBound : table.toNat < 2 ^ 48)
    (counted : ordinal.toNat + (left + 1) = geometry.levelCount.toNat) :
    entryAddress va geometry ordinal table =
      some (UInt64.ofNat (table.toNat +
        va.toNat / 2 ^ (geometry.pageShift.toNat +
          left * geometry.indexBits.toNat) %
            2 ^ geometry.indexBits.toNat * 8)) := by
  have numbers := sound.iteration counted
  have reach := sound.shift_le left (by omega)
  have shiftToNat := small_toNat
    (geometry.pageShift.toNat + left * geometry.indexBits.toNat) (by omega)
  have indexEq := sound.index_toNat va reach
  have indexBound := Nat.mod_lt
    (va.toNat / 2 ^ (geometry.pageShift.toNat +
      left * geometry.indexBits.toNat))
    (Nat.two_pow_pos geometry.indexBits.toNat)
  have sizeBound : 2 ^ geometry.indexBits.toNat ≤ 2 ^ 13 :=
    Nat.pow_le_pow_right (by decide) sound.index
  obtain ⟨offset, offsetComputed, addressComputed⟩ :=
    slot_address table
      ((va >>> UInt64.ofNat (geometry.pageShift.toNat +
          left * geometry.indexBits.toNat)) &&& geometry.indexMask)
      (by omega) (by rw [indexEq]; omega)
  simp only [entryAddress, numbers.level, numbers.count, numbers.remaining,
    numbers.product, numbers.shift, Option.bind_eq_bind, Option.bind_some,
    shiftToNat, offsetComputed, addressComputed, indexEq]

/-- The loop reads the slots that the radix search visits. -/
theorem walkReads_eq (memory : MemoryAccess) (va : UInt64)
    {geometry : Geometry} (sound : geometry.Sound) {count : Nat}
    {ordinal : UInt8} {table : UInt64} (tableBound : table.toNat < 2 ^ 48)
    (counted : ordinal.toNat + count = geometry.levelCount.toNat) :
    walkReads memory va geometry count ordinal table =
      (RadixWalk.visits (fetchEntry memory) (2 ^ geometry.indexBits.toNat)
        va.toNat
        (levelsFrom geometry.pageShift.toNat geometry.indexBits.toNat
          geometry.pageMask count) table).map slotOf := by
  induction count generalizing ordinal table with
  | zero => rfl
  | succ left induction =>
      have numbers := sound.iteration counted
      simp only [walkReads, levelsFrom, RadixWalk.visits, fetchEntry,
        entryAddress_eq va sound tableBound counted, List.map_cons, slotOf,
        numbers.last]
      cases readScalar UInt64 memory _ .littleEndian with
      | error error => rfl
      | ok entry =>
          simp only [decideEntry]
          split_ifs with absent last page table' top
          · rfl
          · rfl
          · rfl
          · have levels := sound.levels
            apply congrArg (List.cons _)
            apply induction
            · have reach := sound.shift_le left (by omega)
              rw [masked_toNat entry geometry.pageMask (by omega)
                sound.pageMaskEq]
              have := Nat.div_mul_le_self (entry.toNat % 2 ^ 48)
                (2 ^ geometry.pageShift.toNat)
              omega
            · rw [UInt8.toNat_add, UInt8.toNat_one]
              omega
          · rfl
          · rfl

/-! The translator as a search of the whole address. -/

section Accepted

variable {granule : TranslationGranule} {addressBits : UInt8}

/-- The number of levels is a rounded-up quotient. -/
theorem levelCount_eq {page index count bits : Nat} (positive : 0 < index)
    (nonempty : 1 ≤ count) (reach : page + (count - 1) * index < bits)
    (covers : bits ≤ page + count * index) :
    (bits - page + index - 1) / index = count := by
  obtain ⟨below, rfl⟩ : ∃ below, count = below + 1 := ⟨count - 1, by omega⟩
  rw [Nat.add_sub_cancel] at reach
  rw [Nat.succ_mul] at covers
  apply Nat.div_eq_of_lt_le
  · rw [Nat.succ_mul]
    omega
  · rw [Nat.succ_mul, Nat.succ_mul]
    omega

theorem rootTable_lt (granule : TranslationGranule) (addressBits : UInt8)
    (root : TranslationRoot) :
    (Tables.rootTable ⟨granule, addressBits⟩ root).toNat < 2 ^ 48 := by
  have masked := Nat.div_mul_le_self (root.raw.toNat % 2 ^ 48)
    (2 ^ granule.pageShift.toNat)
  rw [Tables.rootTable, frameOf_toNat]
  simp only
  omega

/-- Past the check, an accepted translator searches with the whole address. -/
theorem translate_search
    (above : granule.pageShift.toNat < addressBits.toNat)
    (below : addressBits.toNat ≤ 48) (memory : MemoryAccess)
    (root : TranslationRoot) {va : Gva}
    (checked : isCanonical va.raw addressBits = true) :
    translate ⟨granule, addressBits⟩ memory root va =
        conclude va.raw (RadixWalk.resolve (fetchEntry memory)
          (2 ^ granule.indexBits.toNat)
          (.other (.backend
            "AArch64 translation completed without a page or block"))
          va.raw.toNat (Tables.lookups ⟨granule, addressBits⟩)
          (Tables.rootTable ⟨granule, addressBits⟩ root)) ∧
      translateReads ⟨granule, addressBits⟩ memory root va =
        (RadixWalk.visits (fetchEntry memory) (2 ^ granule.indexBits.toNat)
          va.raw.toNat (Tables.lookups ⟨granule, addressBits⟩)
          (Tables.rootTable ⟨granule, addressBits⟩ root)).map slotOf := by
  obtain ⟨geometry, computed, sound, pageEq, indexEq, nonempty, reach,
    covers⟩ :=
    geometryOf_ok above below
  have shape := granule.shape
  have rootEq : root.raw &&& physicalAddressMask &&& ~~~geometry.pageMask =
      Tables.rootTable ⟨granule, addressBits⟩ root := by
    rw [← UInt64.toNat_inj, Tables.rootTable, frameOf_toNat, ← pageEq]
    exact masked_toNat root.raw geometry.pageMask (by rw [pageEq]; omega)
      sound.pageMaskEq
  have lookupsEq : levelsFrom geometry.pageShift.toNat
      geometry.indexBits.toNat geometry.pageMask geometry.levelCount.toNat =
        Tables.lookups ⟨granule, addressBits⟩ := by
    have maskEq : geometry.pageMask =
        UInt64.ofNat (2 ^ granule.pageShift.toNat - 1) := by
      rw [← UInt64.toNat_inj, sound.pageMaskEq, pageEq]
      refine (UInt64.toNat_ofNat_of_lt' ?_).symm
      have powerBound : 2 ^ granule.pageShift.toNat ≤ 2 ^ 16 :=
        Nat.pow_le_pow_right (by decide) (by omega)
      unfold UInt64.size
      omega
    rw [pageEq, indexEq] at reach covers
    rw [pageEq, indexEq, maskEq,
      ← levelCount_eq (by omega) nonempty reach covers]
    rfl
  have rootBound := rootTable_lt granule addressBits root
  rw [← lookupsEq, ← indexEq, ← rootEq]
  rw [← rootEq] at rootBound
  constructor
  · rw [translate_eq, if_pos checked, computed, ok_bind]
    exact walk_eq memory va.raw sound rootBound
      (by rw [UInt8.toNat_zero, Nat.zero_add])
  · unfold translateReads
    rw [if_pos checked, computed]
    exact walkReads_eq memory va.raw sound rootBound
      (by rw [UInt8.toNat_zero, Nat.zero_add])

end Accepted

section Levels

variable {granule : TranslationGranule} {addressBits : UInt8}

/-- There is a first level, and the levels below it end within the size. -/
theorem tables_levels (above : granule.pageShift.toNat < addressBits.toNat)
    (below : addressBits.toNat ≤ 48) :
    ∃ left, Tables.levels ⟨granule, addressBits⟩ = left + 1 ∧
      granule.pageShift.toNat + left * granule.indexBits.toNat <
        addressBits.toNat ∧
      addressBits.toNat ≤ granule.pageShift.toNat +
        (left + 1) * granule.indexBits.toNat := by
  obtain ⟨geometry, _, _, pageEq, indexEq, nonempty, reach, covers⟩ :=
    geometryOf_ok above below
  have shape := granule.shape
  rw [pageEq, indexEq] at reach covers
  obtain ⟨left, leftEq⟩ : ∃ left, geometry.levelCount.toNat = left + 1 :=
    ⟨geometry.levelCount.toNat - 1, by omega⟩
  have counted := levelCount_eq (by omega) nonempty reach covers
  rw [leftEq] at counted reach covers
  exact ⟨left, counted, reach, covers⟩

/-- A search starts in the root table, at the address's first digit. -/
theorem visits_head (memory : MemoryAccess) (root : TranslationRoot)
    (address : Nat) {left : Nat}
    (levels : Tables.levels ⟨granule, addressBits⟩ = left + 1) :
    (RadixWalk.visits (fetchEntry memory) (2 ^ granule.indexBits.toNat)
        address (Tables.lookups ⟨granule, addressBits⟩)
        (Tables.rootTable ⟨granule, addressBits⟩ root)).head? =
      some (Tables.rootTable ⟨granule, addressBits⟩ root,
        address / 2 ^ (granule.pageShift.toNat +
          left * granule.indexBits.toNat) % 2 ^ granule.indexBits.toNat) := by
  unfold Tables.lookups
  rw [levels]
  rfl

end Levels

/-- A memory in which nothing can be read. -/
def absentMemory : MemoryAccess :=
  ⟨fun address length => .error (.readFailed address.raw length)⟩

/-! The two regions of the address space. -/

/-- The bits from the configured size up are all clear, or all set. -/
def InRegions (addressBits : Nat) (va : UInt64) : Prop :=
  va.toNat / 2 ^ addressBits = 0 ∨
    va.toNat / 2 ^ addressBits = 2 ^ (64 - addressBits) - 1

theorem inRegions_iff {addressBits : Nat} (below : addressBits ≤ 64)
    (va : UInt64) :
    InRegions addressBits va ↔ va.toNat < 2 ^ addressBits ∨
      2 ^ 64 - 2 ^ addressBits ≤ va.toNat := by
  have unit : 0 < 2 ^ addressBits := Nat.two_pow_pos addressBits
  have split : 2 ^ 64 = 2 ^ (64 - addressBits) * 2 ^ addressBits := by
    rw [← Nat.pow_add, Nat.sub_add_cancel below]
  have bound := va.toNat_lt
  have quotient : va.toNat / 2 ^ addressBits < 2 ^ (64 - addressBits) := by
    rw [Nat.div_lt_iff_lt_mul unit, ← split]
    exact bound
  have upper : va.toNat / 2 ^ addressBits = 2 ^ (64 - addressBits) - 1 ↔
      2 ^ 64 - 2 ^ addressBits ≤ va.toNat := by
    rw [split, ← Nat.sub_one_mul, ← Nat.le_div_iff_mul_le unit]
    omega
  unfold InRegions
  rw [Nat.div_eq_zero_iff_lt unit, upper]

/-- The translator turns the address down without reading a descriptor. -/
def RefusesAddress (translator : Aarch64Translator) (memory : MemoryAccess)
    (root : TranslationRoot) (va : Gva) : Prop :=
  translator.translateReads memory root va = [] ∧
    ∃ address bits, translator.translate memory root va =
      .error (.nonCanonicalAddress address bits)

/-- A memory that is read by physical addresses, none of which can be
non-canonical. -/
def PhysicalMemory (memory : MemoryAccess) : Prop :=
  ∀ address length reported bits, memory.readInto address length ≠
    .error (.nonCanonicalAddress reported bits)

section Regions

variable {addressBits : Nat} {va : UInt64}

private theorem div_bits (positive : 0 < addressBits) (value : Nat) :
    value / 2 ^ addressBits = value / 2 ^ (addressBits - 1) / 2 := by
  rw [Nat.div_div_eq_div_mul, ← Nat.pow_succ,
    show (addressBits - 1).succ = addressBits by omega]

private theorem pow_above_sign (positive : 0 < addressBits)
    (below : addressBits < 64) :
    2 ^ (64 - (addressBits - 1)) = 2 * 2 ^ (64 - addressBits) ∧
      2 ^ (64 - addressBits) = 2 * 2 ^ (63 - addressBits) := by
  constructor
  · rw [← Nat.pow_succ']
    congr 1
    omega
  · rw [← Nat.pow_succ']
    congr 1
    omega

/-- The check refuses only part of the regions. -/
theorem inRegions_of_signExtended (positive : 0 < addressBits)
    (below : addressBits < 64) (extended : SignExtended va addressBits) :
    InRegions addressBits va := by
  obtain ⟨power, _⟩ := pow_above_sign positive below
  unfold InRegions
  rw [div_bits positive]
  unfold SignExtended at extended
  omega

/-- Within the regions, the check asks for the highest bit of the configured
size to be like those above it. -/
theorem signExtended_iff_bit (positive : 0 < addressBits)
    (below : addressBits < 64) (inside : InRegions addressBits va) :
    SignExtended va addressBits ↔
      va.toNat / 2 ^ (addressBits - 1) % 2 = va.toNat / 2 ^ 63 := by
  obtain ⟨power, halved⟩ := pow_above_sign positive below
  have unit : 0 < 2 ^ (63 - addressBits) := Nat.two_pow_pos _
  have top : va.toNat / 2 ^ 63 =
      va.toNat / 2 ^ addressBits / 2 ^ (63 - addressBits) := by
    rw [Nat.div_div_eq_div_mul, ← Nat.pow_add,
      show addressBits + (63 - addressBits) = 63 by omega]
  rw [top]
  unfold SignExtended
  cases inside with
  | inl low =>
      rw [low, Nat.zero_div]
      rw [div_bits positive] at low
      omega
  | inr high =>
      have one : (2 ^ (64 - addressBits) - 1) / 2 ^ (63 - addressBits) = 1 := by
        apply Nat.div_eq_of_lt_le <;> omega
      rw [high, one]
      rw [div_bits positive] at high
      omega

end Regions

section Check

variable {granule : TranslationGranule} {addressBits : UInt8}

theorem refusesAddress_iff
    (above : granule.pageShift.toNat < addressBits.toNat)
    (below : addressBits.toNat ≤ 48) (memory : MemoryAccess)
    (root : TranslationRoot) (va : Gva) :
    RefusesAddress ⟨granule, addressBits⟩ memory root va ↔
      ¬ SignExtended va.raw addressBits.toNat := by
  rw [← isCanonical_iff (by omega) (by omega)]
  constructor
  · intro refused checked
    obtain ⟨left, levels, _⟩ := tables_levels above below
    have reads := (translate_search above below memory root checked).2
    have first := visits_head memory root va.raw.toNat levels
    rw [refused.1, eq_comm, List.map_eq_nil_iff] at reads
    rw [reads] at first
    contradiction
  · intro unchecked
    refine ⟨if_neg unchecked, va.raw, addressBits, ?_⟩
    rw [translate_eq]
    exact if_neg unchecked

/-- The fault of a walk is not one of canonicality. -/
def PhysicalFault (fault : Fault) : Prop :=
  ∀ va reported bits, fault.report va ≠ .nonCanonicalAddress reported bits

theorem levelsFrom_fails {pageShift indexBits count : Nat}
    {pageMask : UInt64} :
    ∀ level ∈ levelsFrom pageShift indexBits pageMask count, ∀ entry fault,
      level.decide entry = .fail fault → PhysicalFault fault := by
  induction count with
  | zero => simp [levelsFrom]
  | succ left induction =>
      intro level inLevels entry fault decided
      simp only [levelsFrom, List.mem_cons] at inLevels
      cases inLevels with
      | inl first =>
          subst first
          simp only [decideEntry] at decided
          split_ifs at decided <;> cases decided <;>
            simp [PhysicalFault, Fault.report]
      | inr inRest => exact induction level inRest entry fault decided

theorem answersNonCanonical_iff
    (above : granule.pageShift.toNat < addressBits.toNat)
    (below : addressBits.toNat ≤ 48) {memory : MemoryAccess}
    (physical : PhysicalMemory memory) (root : TranslationRoot) (va : Gva) :
    (∃ address bits, translate ⟨granule, addressBits⟩ memory root va =
        .error (.nonCanonicalAddress address bits)) ↔
      ¬ SignExtended va.raw addressBits.toNat := by
  rw [← isCanonical_iff (by omega) (by omega)]
  constructor
  · intro answered checked
    obtain ⟨address, bits, answer⟩ := answered
    rw [(translate_search above below memory root checked).1] at answer
    cases resolved : RadixWalk.resolve (fetchEntry memory)
        (2 ^ granule.indexBits.toNat)
        (.other (.backend
          "AArch64 translation completed without a page or block"))
        va.raw.toNat (Tables.lookups ⟨granule, addressBits⟩)
        (Tables.rootTable ⟨granule, addressBits⟩ root) with
    | ok leaf => simp [resolved, conclude] at answer
    | error fault =>
        simp only [resolved, conclude, Except.error.injEq] at answer
        have unread : ∀ current index error,
            fetchEntry memory current index = .error error →
              PhysicalFault error := by
          intro current index error failed
          obtain ⟨other, answered, rfl⟩ := fetchEntry_eq_error.mp failed
          intro va reported bits same
          exact physical _ _ reported bits (by rw [answered]; exact congrArg _ same)
        have ends : PhysicalFault (.other (.backend
            "AArch64 translation completed without a page or block")) := by
          simp [PhysicalFault, Fault.report]
        exact RadixWalk.resolve_error_property PhysicalFault unread
          levelsFrom_fails ends resolved va.raw address bits answer
  · intro unchecked
    refine ⟨va.raw, addressBits, ?_⟩
    rw [translate_eq]
    exact if_neg unchecked

end Check

/-- An address of the regions is let through unless the highest bit of the
configured size differs from the bits above it. -/
theorem region_check_iff {granule : TranslationGranule} {addressBits : UInt8}
    {translator : Aarch64Translator}
    (accepted : new granule addressBits = .ok translator)
    (memory : MemoryAccess) (root : TranslationRoot) (va : Gva) :
    ((RefusesAddress translator memory root va ↔
        ¬ InRegions addressBits.toNat va.raw) ↔
      (InRegions addressBits.toNat va.raw →
        va.raw.toNat / 2 ^ (addressBits.toNat - 1) % 2 =
          va.raw.toNat / 2 ^ 63)) ∧
    (PhysicalMemory memory →
      (((∃ address bits, translator.translate memory root va =
          .error (.nonCanonicalAddress address bits)) ↔
          ¬ InRegions addressBits.toNat va.raw) ↔
        (InRegions addressBits.toNat va.raw →
          va.raw.toNat / 2 ^ (addressBits.toNat - 1) % 2 =
            va.raw.toNat / 2 ^ 63))) := by
  obtain ⟨rfl, above, below⟩ := new_eq_ok accepted
  have shape := granule.shape
  have regions : SignExtended va.raw addressBits.toNat →
      InRegions addressBits.toNat va.raw :=
    inRegions_of_signExtended (by omega) (by omega)
  have halves : InRegions addressBits.toNat va.raw → _ :=
    signExtended_iff_bit (by omega) (by omega)
  constructor
  · rw [refusesAddress_iff above below]
    tauto
  · intro physical
    rw [answersNonCanonical_iff above below physical]
    tauto

/-- The upper half of the lower region is turned down. -/
theorem upper_half_of_lower_region_refused :
    new .kib4 48 = .ok ⟨.kib4, 48⟩ ∧ InRegions 48 0x0000800000000000 ∧
      translate ⟨.kib4, 48⟩ absentMemory ⟨0⟩ ⟨0x0000800000000000⟩ =
        .error (.nonCanonicalAddress 0x0000800000000000 48) ∧
      ¬ ((∃ address bits, translate ⟨.kib4, 48⟩ absentMemory ⟨0⟩
          ⟨0x0000800000000000⟩ =
            .error (.nonCanonicalAddress address bits)) ↔
        ¬ InRegions 48 0x0000800000000000) := by
  have inside : InRegions 48 0x0000800000000000 := .inl (by decide)
  have answer : translate ⟨.kib4, 48⟩ absentMemory ⟨0⟩
      ⟨0x0000800000000000⟩ =
        .error (.nonCanonicalAddress 0x0000800000000000 48) := by
    decide
  refine ⟨rfl, inside, answer, ?_⟩
  intro claimed
  exact claimed.mp ⟨_, _, answer⟩ inside

theorem absentMemory_physical : PhysicalMemory absentMemory := by
  intro address length reported bits same
  cases same

theorem region_check_iff_second_page :
    (RefusesAddress ⟨.kib4, 48⟩ absentMemory ⟨0⟩ ⟨0x1000⟩ ↔
      ¬ InRegions 48 0x1000) ∧
    ((∃ address bits, translate ⟨.kib4, 48⟩ absentMemory ⟨0⟩ ⟨0x1000⟩ =
        .error (.nonCanonicalAddress address bits)) ↔
      ¬ InRegions 48 0x1000) := by
  obtain ⟨unread, answered⟩ :=
    @region_check_iff .kib4 48 _ rfl absentMemory ⟨0⟩ ⟨0x1000⟩
  have agrees : InRegions 48 0x1000 →
      (0x1000 : UInt64).toNat / 2 ^ (48 - 1) % 2 =
        (0x1000 : UInt64).toNat / 2 ^ 63 := by
    intro _
    decide
  exact ⟨unread.mpr agrees, (answered absentMemory_physical).mpr agrees⟩

end LibVmi.Arch.Aarch64.Aarch64Translator
