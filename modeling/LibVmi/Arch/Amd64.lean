import LibVmi.Arch.Mapping

namespace LibVmi.Arch.Amd64

open Data

def present : UInt64 := 1

def large : UInt64 := (1 : UInt64) <<< 7

def addressMask : UInt64 := 0x000ffffffffff000

def isCanonical (address : UInt64) (bits : UInt8) : Bool :=
  canonicalBy ((checkedShl 1 bits.toNat).bind fun value => checkedSub value 1)
    address bits

/-- The loop of `translate_levels`, from the entry at `position` on. -/
def walkLevels (memory : MemoryAccess) (va : UInt64) (count : Nat) :
    (position : Nat) → (shifts : List UInt8) → (table : UInt64) →
      Result Translation
  | _, [], _ => .error (.backend "AMD64 translation level list is empty")
  | position, shift :: rest, table => do
      let remaining ← okOr (Usize.checkedSub count position)
        (.backend "AMD64 translation level underflow")
      let level : UInt8 ← okOr (tryFrom remaining)
        (.backend "AMD64 translation level overflow")
      let index := (va >>> UInt64.ofNat shift.toNat) &&& 0x1ff
      let entryOffset ← okOr (checkedMul index 8)
        (.backend "AMD64 page-table entry offset overflow")
      let entryAddress ← okOr (checkedAdd table entryOffset)
        (.backend "AMD64 page-table entry address overflow")
      let entry ← readScalar UInt64 memory ⟨entryAddress⟩ .littleEndian
      if entry &&& present = 0 then
        .error (.pageNotPresent va level)
      else if entry &&& large ≠ 0 ∧ level > 3 then
        .error (.invalidPageTableEntry entry level)
      else if level = 3 ∧ entry &&& large ≠ 0 then
        .ok ⟨⟨(entry &&& 0x000fffffc0000000) ||| (va &&& 0x3fffffff)⟩, (1 : UInt64) <<< 30⟩
      else if level = 2 ∧ entry &&& large ≠ 0 then
        .ok ⟨⟨(entry &&& 0x000fffffffe00000) ||| (va &&& 0x1fffff)⟩, (1 : UInt64) <<< 21⟩
      else if level = 1 then
        if entry &&& large ≠ 0 then
          .error (.invalidPageTableEntry entry level)
        else
          .ok ⟨⟨(entry &&& addressMask) ||| (va &&& 0xfff)⟩, (1 : UInt64) <<< 12⟩
      else
        walkLevels memory va count (position + 1) rest (entry &&& addressMask)

def translateLevels (memory : MemoryAccess) (root : TranslationRoot)
    (address : Gva) (addressBits : UInt8) (shifts : List UInt8) :
    Result Translation :=
  if isCanonical address.raw addressBits then
    walkLevels memory address.raw shifts.length 0 shifts
      (root.raw &&& addressMask)
  else
    .error (.nonCanonicalAddress address.raw addressBits)

def amd64Translator : AddressTranslator where
  cacheTag := 0x414d4436345f3438
  translate := fun memory root address =>
    translateLevels memory root address 48 [39, 30, 21, 12]

def amd64La57Translator : AddressTranslator where
  cacheTag := 0x414d4436345f3537
  translate := fun memory root address =>
    translateLevels memory root address 57 [48, 39, 30, 21, 12]

/-! The loop as a radix search. -/

def decideEntry (level : UInt8) (entry : UInt64) :
    RadixWalk.Decision UInt64 UInt64 Fault :=
  if entry &&& present = 0 then
    .fail (.notPresent level)
  else if entry &&& large ≠ 0 ∧ level > 3 then
    .fail (.other (.invalidPageTableEntry entry level))
  else if level = 3 ∧ entry &&& large ≠ 0 then
    .leaf (entry &&& 0x000fffffc0000000)
  else if level = 2 ∧ entry &&& large ≠ 0 then
    .leaf (entry &&& 0x000fffffffe00000)
  else if level = 1 then
    if entry &&& large ≠ 0 then
      .fail (.other (.invalidPageTableEntry entry level))
    else
      .leaf (entry &&& addressMask)
  else
    .descend (entry &&& addressMask)

def levelsOf : List UInt8 → List WalkLevel
  | [] => []
  | shift :: rest =>
      ⟨shift.toNat, decideEntry (UInt8.ofNat (rest.length + 1))⟩ ::
        levelsOf rest

/-- Each level resolves nine more bits above the 4 KiB page. -/
def Graduated : List UInt8 → Prop
  | [] => True
  | shift :: rest => shift.toNat = 12 + 9 * rest.length ∧ Graduated rest

private theorem masked_bound (value : UInt64) :
    (value &&& addressMask).toNat < 2 ^ 52 := by
  rw [and_range_mask_toNat value addressMask 12 52 (by decide)
    (by decide)]
  omega

private theorem level_eq_iff {length : Nat} (bound : length < 5)
    {level : UInt8} : UInt8.ofNat (length + 1) = level ↔
      length + 1 = level.toNat := by
  rw [← UInt8.toNat_inj, UInt8.toNat_ofNat_of_lt' (by
    simp only [UInt8.size]
    omega)]

private theorem frameFits_masked {entry mask : UInt64} {shift : Nat}
    (ordered : shift ≤ 52) (maskEq : mask.toNat = 2 ^ 52 - 2 ^ shift) :
    FrameFits (entry &&& mask) shift :=
  frameFits_of_toNat ordered (by decide)
    (and_range_mask_toNat entry mask _ _ ordered maskEq)

private theorem conclude_leaf (low : UInt64) {va entry mask : UInt64} {shift : Nat}
    (ordered : shift ≤ 52) (maskEq : mask.toNat = 2 ^ 52 - 2 ^ shift)
    (lowEq : low.toNat = 2 ^ shift - 1) :
    conclude va (.ok ⟨entry &&& mask, shift⟩) =
      .ok ⟨⟨(entry &&& mask) ||| (va &&& low)⟩, UInt64.ofNat (2 ^ shift)⟩ := by
  rw [frame_or_offset (frameFits_masked ordered maskEq) lowEq]
  rfl

/-- The loop reads the slots, and decides, as the radix search does. -/
theorem walkLevels_eq (memory : MemoryAccess) (va : UInt64)
    {count position : Nat} {shifts : List UInt8} {table : UInt64}
    (graduated : Graduated shifts) (tableBound : table.toNat < 2 ^ 52)
    (counted : count = position + shifts.length) (short : shifts.length ≤ 5) :
    walkLevels memory va count position shifts table =
      conclude va (RadixWalk.resolve (fetchEntry memory) 512
        (.other (.backend "AMD64 translation level list is empty"))
        va.toNat (levelsOf shifts) table) := by
  induction shifts generalizing position table with
  | nil => rfl
  | cons shift rest induction =>
      obtain ⟨shiftEq, restGraduated⟩ := graduated
      simp only [List.length_cons] at counted short
      have remainingEq :
          Usize.checkedSub count position = some (rest.length + 1) :=
        Usize.checkedSub_eq_some.mpr (by omega)
      have levelEq : (tryFrom (rest.length + 1) : Option UInt8) =
          some (UInt8.ofNat (rest.length + 1)) :=
        tryFrom_eq_some.mpr (UInt8.toNat_ofNat_of_lt' (by
          simp only [UInt8.size]
          omega))
      have indexEq :
          ((va >>> UInt64.ofNat shift.toNat) &&& 0x1ff).toNat =
            va.toNat / 2 ^ shift.toNat % 512 := by
        rw [and_low_mask_toNat _ _ 9 (by decide),
          shiftRight_toNat va (by omega)]
        rfl
      obtain ⟨offset, offsetComputed, addressComputed⟩ :=
        slot_address table ((va >>> UInt64.ofNat shift.toNat) &&& 0x1ff)
          (by omega) (by rw [indexEq]; omega)
      simp only [walkLevels, levelsOf, RadixWalk.resolve, fetchEntry,
        remainingEq, levelEq, offsetComputed, addressComputed, okOr_some,
        ok_bind, indexEq]
      cases readScalar UInt64 memory _ .littleEndian with
      | error error => rfl
      | ok entry =>
          simp only [ok_bind, decideEntry]
          split_ifs with absent reserved giant huge last tail
          · rfl
          · rfl
          · have lengthEq := (level_eq_iff (by omega)).mp giant.1
            change rest.length + 1 = 3 at lengthEq
            rw [show shift.toNat = 30 by omega,
              conclude_leaf 0x3fffffff (by decide) (by decide)
                (by decide)]
            rfl
          · have lengthEq := (level_eq_iff (by omega)).mp huge.1
            change rest.length + 1 = 2 at lengthEq
            rw [show shift.toNat = 21 by omega,
              conclude_leaf 0x1fffff (by decide) (by decide)
                (by decide)]
            rfl
          · rfl
          · have lengthEq := (level_eq_iff (by omega)).mp last
            change rest.length + 1 = 1 at lengthEq
            rw [show shift.toNat = 12 by omega,
              conclude_leaf 0xfff (by decide) (by decide)
                (by decide)]
            rfl
          · exact induction restGraduated (masked_bound entry)
              (by omega) (by omega)

theorem isCanonical_iff {address : UInt64} {bits : UInt8}
    (positive : 0 < bits.toNat) (below : bits.toNat < 64) :
    isCanonical address bits = true ↔ SignExtended address bits.toNat := by
  obtain ⟨mask, computed, maskEq⟩ := low_mask_computed _ below
  unfold isCanonical
  rw [computed]
  exact canonicalBy_iff positive below maskEq

private theorem levelsOf_bounds {shifts : List UInt8}
    (graduated : Graduated shifts) :
    ∀ level ∈ levelsOf shifts,
      12 ≤ level.shift ∧ level.shift + 9 ≤ 12 + 9 * shifts.length := by
  induction shifts with
  | nil => simp [levelsOf]
  | cons shift rest induction =>
      obtain ⟨shiftEq, restGraduated⟩ := graduated
      intro level inLevels
      simp only [levelsOf, List.mem_cons] at inLevels
      simp only [List.length_cons]
      rcases inLevels with rfl | inRest
      · simp only
        omega
      · have := induction restGraduated level inRest
        omega

private theorem levelsOf_descending {shifts : List UInt8}
    (graduated : Graduated shifts) :
    (levelsOf shifts).Pairwise fun upper lower => lower.shift ≤ upper.shift := by
  induction shifts with
  | nil => exact List.Pairwise.nil
  | cons shift rest induction =>
      obtain ⟨shiftEq, restGraduated⟩ := graduated
      refine List.Pairwise.cons ?_ (induction restGraduated)
      intro lower inRest
      have := (levelsOf_bounds restGraduated lower inRest).2
      simp only
      omega

private theorem decideEntry_frame {length : Nat} (short : length < 5)
    {entry frame : UInt64}
    (decided : decideEntry (UInt8.ofNat (length + 1)) entry = .leaf frame) :
    FrameFits frame (12 + 9 * length) := by
  unfold decideEntry at decided
  split_ifs at decided with absent reserved giant huge last tail
  · have lengthEq := (level_eq_iff short).mp giant.1
    change length + 1 = 3 at lengthEq
    cases decided
    rw [show 12 + 9 * length = 30 by omega]
    exact frameFits_masked (by decide) (by decide)
  · have lengthEq := (level_eq_iff short).mp huge.1
    change length + 1 = 2 at lengthEq
    cases decided
    rw [show 12 + 9 * length = 21 by omega]
    exact frameFits_masked (by decide) (by decide)
  · have lengthEq := (level_eq_iff short).mp last
    change length + 1 = 1 at lengthEq
    cases decided
    rw [show 12 + 9 * length = 12 by omega]
    exact frameFits_masked (by decide) (by decide)

private theorem levelsOf_frames {shifts : List UInt8}
    (graduated : Graduated shifts) (short : shifts.length ≤ 5) :
    ∀ level ∈ levelsOf shifts, ∀ entry frame,
      level.decide entry = .leaf frame → FrameFits frame level.shift := by
  induction shifts with
  | nil => simp [levelsOf]
  | cons shift rest induction =>
      obtain ⟨shiftEq, restGraduated⟩ := graduated
      simp only [List.length_cons] at short
      intro level inLevels entry frame decided
      simp only [levelsOf, List.mem_cons] at inLevels
      rcases inLevels with rfl | inRest
      · simp only at decided ⊢
        rw [shiftEq]
        exact decideEntry_frame (by omega) decided
      · exact induction restGraduated (by omega) level inRest entry frame
          decided

/-- Any graduated level list below the sign bit gives a radix walk. -/
def walkForm (tag : UInt64) (bits : UInt8) (shifts : List UInt8)
    (graduated : Graduated shifts) (short : shifts.length ≤ 5)
    (page : 13 ≤ bits.toNat) (below : bits.toNat < 64)
    (covered : 12 + 9 * shifts.length ≤ bits.toNat + 8) :
    WalkForm ⟨tag, fun memory root address =>
      translateLevels memory root address bits shifts⟩ where
  bits := bits
  size := 512
  exhausted := .other (.backend "AMD64 translation level list is empty")
  levels := levelsOf shifts
  rootTable := fun root => root.raw &&& addressMask
  rejected := by
    intro memory root va noncanonical
    simp only [translateLevels]
    rw [if_neg (fun canonical => noncanonical
      ((isCanonical_iff (by omega) below).mp canonical))]
  accepted := by
    intro memory root va canonical
    simp only [translateLevels]
    rw [if_pos ((isCanonical_iff (by omega) below).mpr canonical)]
    exact walkLevels_eq memory va.raw graduated (masked_bound root.raw)
      (by omega) short
  descending := levelsOf_descending graduated
  pageSized := fun level inLevels =>
    (levelsOf_bounds graduated level inLevels).1
  belowSign := by
    intro level inLevels
    have := (levelsOf_bounds graduated level inLevels).2
    omega
  signAbovePage := by omega
  frames := levelsOf_frames graduated short

theorem amd64Translator_walkForm : Nonempty (WalkForm amd64Translator) :=
  ⟨walkForm _ 48 [39, 30, 21, 12] (by simp [Graduated]) (by decide)
    (by decide) (by decide) (by decide)⟩

theorem amd64La57Translator_walkForm :
    Nonempty (WalkForm amd64La57Translator) :=
  ⟨walkForm _ 57 [48, 39, 30, 21, 12] (by simp [Graduated]) (by decide)
    (by decide) (by decide) (by decide)⟩

end LibVmi.Arch.Amd64
