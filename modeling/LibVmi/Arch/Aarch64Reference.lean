import LibVmi.Arch.Aarch64Blocks

namespace LibVmi.Arch.Aarch64

open Data

/-! The stage 1 walk of VMSAv8-64 for 48 address bits, from its own tables and
by arithmetic. Access flags and permissions are left out: what is walked for is
where an address leads. -/

namespace Vmsa

/-- A page, and a table that fills one, has this many address bits. -/
def granuleBits : TranslationGranule → Nat
  | .kib4 => 12
  | .kib16 => 14
  | .kib64 => 16

/-- A table of the granule's size has descriptors of eight bytes. -/
def stride (granule : TranslationGranule) : Nat :=
  granuleBits granule - 3

/-- The bits of the address below those that a table with `left` levels under it
resolves. -/
def resolved (granule : TranslationGranule) (left : Nat) : Nat :=
  granuleBits granule + left * stride granule

/-- The levels under the initial one, which is level `3` less this. -/
def levelsBelow (granule : TranslationGranule) (size : Nat) : Nat :=
  (size - 1 - granuleBits granule) / stride granule

/-- The bits of the address that the initial table resolves. -/
def initialBits (granule : TranslationGranule) (size : Nat) : Nat :=
  size - resolved granule (levelsBelow granule size)

/-- The initial table is aligned to its own size. -/
def initialTable (granule : TranslationGranule) (size root : Nat) : Nat :=
  let alignment := 2 ^ (initialBits granule size + 3)
  root % 2 ^ 48 / alignment * alignment

def level (left : Nat) : UInt8 :=
  UInt8.ofNat (3 - left)

inductive Descriptor where
  | invalid
  | reserved
  | table (base : Nat)
  | output (base : Nat)

/-- Bits 1 and 0 of a descriptor tell what it is: there are pages at level 3
alone, tables above it, and blocks where the granule has them. -/
def decode (granule : TranslationGranule) (left entry : Nat) : Descriptor :=
  let output := entry % 2 ^ 48 / 2 ^ resolved granule left *
    2 ^ resolved granule left
  if entry % 2 = 0 then .invalid
  else if entry / 2 % 2 = 1 then
    if left = 0 then .output output
    else .table (entry % 2 ^ 48 / 2 ^ granuleBits granule *
      2 ^ granuleBits granule)
  else if level left ∈ granule.blockLevels then .output output
  else .reserved

/-- Where the descriptor of an input address stands in a table. -/
def slot (granule : TranslationGranule) (left table input : Nat) : Gpa :=
  ⟨UInt64.ofNat (table +
    8 * (input / 2 ^ resolved granule left % 2 ^ stride granule))⟩

/-- The walk from a table with `left` levels under it: the descriptors it reads,
and what it comes to. -/
def walkFrom (granule : TranslationGranule) (memory : MemoryAccess)
    (va : UInt64) (input : Nat) :
    (left table : Nat) → List Gpa × Result Translation
  | left, table =>
      let address := slot granule left table input
      match readScalar UInt64 memory address .littleEndian with
      | .error error => ([address], .error error)
      | .ok entry =>
          match decode granule left entry.toNat, left with
          | .table base, below + 1 =>
              let onward := walkFrom granule memory va input below base
              (address :: onward.1, onward.2)
          | .output base, _ =>
              ([address], .ok ⟨⟨UInt64.ofNat (base +
                input % 2 ^ resolved granule left)⟩,
                UInt64.ofNat (2 ^ resolved granule left)⟩)
          | .invalid, _ => ([address], .error (.pageNotPresent va (level left)))
          | _, _ =>
              ([address], .error (.invalidPageTableEntry entry (level left)))

/-- The walk of an address, of which the configured size is resolved. -/
def walk (granule : TranslationGranule) (size : Nat) (memory : MemoryAccess)
    (root : TranslationRoot) (va : Gva) : List Gpa × Result Translation :=
  walkFrom granule memory va.raw (va.raw.toNat % 2 ^ size)
    (levelsBelow granule size) (initialTable granule size root.raw.toNat)

end Vmsa

namespace Aarch64Translator

/-! Where both walks look at the same bits of an address, and no block stands
where there is none, they are the same. -/

section Agreement

variable {granule : TranslationGranule} {memory : MemoryAccess} {va : UInt64}
  {input : Nat}

theorem granuleBits_eq (granule : TranslationGranule) :
    Vmsa.granuleBits granule = granule.pageShift.toNat ∧
      Vmsa.stride granule = granule.indexBits.toNat := by
  cases granule <;> decide

theorem resolved_eq (granule : TranslationGranule) (left : Nat) :
    Vmsa.resolved granule left = granule.entryShift left := by
  rw [Vmsa.resolved, (granuleBits_eq granule).1, (granuleBits_eq granule).2,
    TranslationGranule.entryShift]

theorem present_iff (entry : UInt64) :
    entry &&& valid = 0 ↔ entry.toNat % 2 = 0 := by
  have bit : valid.toNat = 2 ^ 0 := rfl
  rw [and_bit_eq_zero_iff entry valid bit, Nat.pow_zero, Nat.div_one]

theorem leads_iff (entry : UInt64) :
    entry &&& tableOrPage = 0 ↔ entry.toNat / 2 % 2 = 0 := by
  have bit : tableOrPage.toNat = 2 ^ 1 := rfl
  exact and_bit_eq_zero_iff entry tableOrPage bit

theorem nextTable_toNat (granule : TranslationGranule) (entry : UInt64) :
    (entry &&& physicalAddressMask &&& ~~~granule.pageMask).toNat =
      entry.toNat % 2 ^ 48 / 2 ^ granule.pageShift.toNat *
        2 ^ granule.pageShift.toNat := by
  have pageMaskEq : granule.pageMask.toNat =
      2 ^ granule.pageShift.toNat - 1 := by
    cases granule <;> decide
  have shape := granule.shape
  exact masked_toNat entry granule.pageMask (by omega) pageMaskEq

/-- What the search of that many levels reads from a table on, and comes to. -/
def searched (granule : TranslationGranule) (memory : MemoryAccess)
    (va : UInt64) (count : Nat) (table : UInt64) :
    List Gpa × Result Translation :=
  let levels := levelsFrom granule.pageShift.toNat granule.indexBits.toNat
    granule.pageMask count
  ((RadixWalk.visits (fetchEntry memory) (2 ^ granule.indexBits.toNat) va.toNat
      levels table).map slotOf,
    conclude va (RadixWalk.resolve (fetchEntry memory)
      (2 ^ granule.indexBits.toNat)
      (.other (.backend
        "AArch64 translation completed without a page or block"))
      va.toNat levels table))

/-- The slot that the search looks into. -/
def searchSlot (granule : TranslationGranule) (va : UInt64) (left : Nat)
    (table : UInt64) : Gpa :=
  slotOf (table, va.toNat / 2 ^ granule.entryShift left %
    2 ^ granule.indexBits.toNat)

theorem searched_eq (left : Nat) (table : UInt64) :
    searched granule memory va (left + 1) table =
      match readScalar UInt64 memory (searchSlot granule va left table)
          .littleEndian with
      | .error error => ([searchSlot granule va left table], .error error)
      | .ok entry =>
          match decideEntry granule.pageMask left (granule.entryShift left)
              entry with
          | .fail fault =>
              ([searchSlot granule va left table], .error (fault.report va))
          | .descend next =>
              (searchSlot granule va left table ::
                (searched granule memory va left next).1,
                (searched granule memory va left next).2)
          | .leaf frame =>
              ([searchSlot granule va left table],
                .ok (place va ⟨frame, granule.entryShift left⟩)) := by
  simp only [searched, searchSlot, levelsFrom, RadixWalk.visits,
    RadixWalk.resolve, fetchEntry, slotOf, List.map_cons,
    TranslationGranule.entryShift]
  cases readScalar UInt64 memory _ .littleEndian with
  | error error => rfl
  | ok entry =>
      simp only [ok_bind]
      cases decideEntry granule.pageMask left _ entry <;> rfl

/-- The two walks look at the same bits of an address from a level down. -/
structure SameBits (granule : TranslationGranule) (va : UInt64)
    (input left : Nat) : Prop where
  digits : ∀ below ≤ left,
    input / 2 ^ granule.entryShift below % 2 ^ granule.indexBits.toNat =
      va.toNat / 2 ^ granule.entryShift below % 2 ^ granule.indexBits.toNat
  offsets : ∀ below ≤ left,
    input % 2 ^ granule.entryShift below =
      va.toNat % 2 ^ granule.entryShift below

theorem SameBits.below {left : Nat}
    (same : SameBits granule va input (left + 1)) :
    SameBits granule va input left :=
  ⟨fun below within => same.digits below (Nat.le_succ_of_le within),
    fun below within => same.offsets below (Nat.le_succ_of_le within)⟩

theorem slot_eq {left : Nat} (same : SameBits granule va input left)
    (table : UInt64) :
    Vmsa.slot granule left table.toNat input =
      searchSlot granule va left table := by
  rw [Vmsa.slot, searchSlot, slotOf, (granuleBits_eq granule).2, resolved_eq,
    same.digits left (Nat.le_refl left), Nat.mul_comm 8]

theorem output_eq {left : Nat} (same : SameBits granule va input left)
    (entry : UInt64) :
    (⟨⟨UInt64.ofNat (entry.toNat % 2 ^ 48 / 2 ^ Vmsa.resolved granule left *
          2 ^ Vmsa.resolved granule left +
        input % 2 ^ Vmsa.resolved granule left)⟩,
      UInt64.ofNat (2 ^ Vmsa.resolved granule left)⟩ : Translation) =
      place va ⟨frameOf entry (granule.entryShift left),
        granule.entryShift left⟩ := by
  rw [place, frameOf_toNat, resolved_eq, same.offsets left (Nat.le_refl left)]

/-- Where there are blocks, by the levels below. -/
theorem block_levels (granule : TranslationGranule) :
    Vmsa.level 0 ∉ granule.blockLevels ∧ Vmsa.level 1 ∈ granule.blockLevels ∧
      Vmsa.level 2 = 1 ∧ Vmsa.level 3 = 0 ∧ 0 ∉ granule.blockLevels := by
  cases granule <;> decide

/-- Without a block where the granule has none, the loop is the walk. -/
theorem walkFrom_eq {left : Nat} (few : left ≤ 3) {table : UInt64}
    (same : SameBits granule va input left)
    (legal : ∀ entry, LeadsTo granule memory va left table 2 entry →
      entry &&& valid ≠ 0 → entry &&& tableOrPage = 0 →
        1 ∈ granule.blockLevels) :
    Vmsa.walkFrom granule memory va input left table.toNat =
      searched granule memory va (left + 1) table := by
  obtain ⟨noPage, low, high, top, noTop⟩ := block_levels granule
  induction left generalizing table with
  | zero =>
      rw [Vmsa.walkFrom, searched_eq, slot_eq same]
      simp only
      cases readScalar UInt64 memory _ .littleEndian with
      | error error => rfl
      | ok entry =>
          simp only [decideEntry, Vmsa.decode, present_iff, leads_iff]
          by_cases absent : entry.toNat % 2 = 0
          · simp only [absent, if_true]
            rfl
          · by_cases leads : entry.toNat / 2 % 2 = 0
            · simp only [absent, leads, noPage, if_false, if_true]
              rfl
            · have one : entry.toNat / 2 % 2 = 1 := by omega
              simp only [absent, one, if_false, if_true, output_eq same]
              rfl
  | succ left induction =>
      rw [Vmsa.walkFrom, searched_eq, slot_eq same]
      simp only
      cases read : readScalar UInt64 memory (searchSlot granule va (left + 1)
          table) .littleEndian with
      | error error => rfl
      | ok entry =>
          have held : descriptor granule memory va (left + 1) table =
              .ok entry := by
            unfold descriptor fetchEntry
            rw [show readScalar UInt64 memory ⟨_⟩ _ = .ok entry from read]
          simp only [decideEntry, Vmsa.decode, present_iff, ne_eq, leads_iff,
            Nat.add_one_ne_zero, if_false]
          by_cases absent : entry.toNat % 2 = 0
          · simp only [absent, if_true]
            rfl
          · by_cases leads : entry.toNat / 2 % 2 = 0
            · have present : entry &&& valid ≠ 0 :=
                fun clear => absent ((present_iff entry).mp clear)
              have block := (leads_iff entry).mpr leads
              simp only [absent, leads, Nat.zero_ne_one, if_false,
                not_true_eq_false]
              obtain rfl | rfl | rfl : left = 0 ∨ left = 1 ∨ left = 2 := by omega
              · rw [if_pos low]
                simp only [output_eq same]
                rfl
              · have admitted := legal entry (.here held) present block
                rw [← high] at admitted
                rw [if_pos admitted]
                simp only [output_eq same]
                rfl
              · rw [← top] at noTop
                rw [if_neg noTop]
                rfl
            · have one : entry.toNat / 2 % 2 = 1 := by omega
              have present : entry &&& valid ≠ 0 :=
                fun clear => absent ((present_iff entry).mp clear)
              have descends : entry &&& tableOrPage ≠ 0 :=
                fun clear => leads ((leads_iff entry).mp clear)
              have rest := induction (by omega) same.below fun lower led =>
                legal lower (.down held present descends led)
              rw [nextTable_toNat] at rest
              simp only [absent, one, Nat.one_ne_zero, if_false, if_true,
                not_false_eq_true, (granuleBits_eq granule).1, rest]

theorem readScalar_of_held {left : Nat} {table entry : UInt64}
    (held : descriptor granule memory va left table = .ok entry) :
    readScalar UInt64 memory (searchSlot granule va left table)
      .littleEndian = .ok entry := by
  rw [searchSlot, slotOf, readScalar_eq_ok]
  exact fetchEntry_eq_ok.mp held

/-- The walk ends at a block where the granule has none. -/
theorem walkFrom_reserved {left below : Nat} {table entry : UInt64}
    (leads : LeadsTo granule memory va left table below entry)
    (same : SameBits granule va input left) (present : entry &&& valid ≠ 0)
    (block : entry &&& tableOrPage = 0)
    (missing : Vmsa.level below ∉ granule.blockLevels) :
    (Vmsa.walkFrom granule memory va input left table.toNat).2 =
      .error (.invalidPageTableEntry entry (Vmsa.level below)) := by
  induction leads with
  | @here left table entry held =>
      rw [Vmsa.walkFrom, slot_eq same]
      simp only [readScalar_of_held held, Vmsa.decode]
      rw [ne_eq, present_iff] at present
      rw [leads_iff] at block
      rw [if_neg present, if_neg (by omega), if_neg missing]
  | @down left below table upper entry held upperPresent upperLeads _
      induction =>
      have rest := induction same.below present block missing
      rw [Vmsa.walkFrom, slot_eq same]
      simp only [readScalar_of_held held, Vmsa.decode]
      rw [ne_eq, present_iff] at upperPresent
      rw [ne_eq, leads_iff] at upperLeads
      rw [nextTable_toNat] at rest
      rw [if_neg upperPresent, if_pos (by omega),
        if_neg (Nat.add_one_ne_zero left), (granuleBits_eq granule).1]
      exact rest

end Agreement

/-! Digits of the whole address and of its configured part. -/

theorem input_digit {value bits shift width : Nat}
    (within : shift + width ≤ bits) :
    value % 2 ^ bits / 2 ^ shift % 2 ^ width =
      value / 2 ^ shift % 2 ^ width := by
  obtain ⟨rest, rfl⟩ := Nat.exists_eq_add_of_le within
  rw [Nat.add_assoc, Nat.pow_add, Nat.mod_mul_right_div_self]
  exact Nat.mod_mod_of_dvd _ (Nat.pow_dvd_pow 2 (Nat.le_add_right width rest))

theorem input_digit_lt (value : Nat) {bits shift : Nat} (width : Nat)
    (ordered : shift ≤ bits) :
    value % 2 ^ bits / 2 ^ shift % 2 ^ width < 2 ^ (bits - shift) := by
  refine Nat.lt_of_le_of_lt (Nat.mod_le _ _) ?_
  rw [Nat.div_lt_iff_lt_mul (Nat.two_pow_pos shift), ← Nat.pow_add,
    Nat.sub_add_cancel ordered]
  exact Nat.mod_lt _ (Nat.two_pow_pos bits)

/-- In the upper half the ones above the configured size reach into a digit
that is wider than what is left of the address. -/
theorem upper_digit {value bits shift width : Nat} (below : bits < 64)
    (ordered : shift < bits) (wide : bits - shift < width)
    (upper : value / 2 ^ (bits - 1) = 2 ^ (64 - (bits - 1)) - 1) :
    2 ^ (bits - shift) ≤ value / 2 ^ shift % 2 ^ width := by
  have odd : value / 2 ^ bits % 2 = 1 := by
    have halved : value / 2 ^ bits = value / 2 ^ (bits - 1) / 2 := by
      rw [Nat.div_div_eq_div_mul, ← Nat.pow_succ,
        show (bits - 1).succ = bits by omega]
    have power : 2 ^ (64 - (bits - 1)) = 2 ^ (63 - bits) * 4 := by
      rw [show (4 : Nat) = 2 ^ 2 by rfl, ← Nat.pow_add]
      congr 1
      omega
    have positive : 0 < 2 ^ (63 - bits) := Nat.two_pow_pos _
    omega
  have digit : value / 2 ^ shift % 2 ^ width / 2 ^ (bits - shift) % 2 = 1 := by
    obtain ⟨rest, rfl⟩ : ∃ rest, width = bits - shift + (rest + 1) :=
      ⟨width - (bits - shift) - 1, by omega⟩
    rw [Nat.pow_add, Nat.mod_mul_right_div_self, Nat.pow_succ,
      Nat.mod_mul_left_mod, Nat.div_div_eq_div_mul, ← Nat.pow_add,
      show shift + (bits - shift) = bits by omega]
    exact odd
  by_contra small
  rw [Nat.div_eq_of_lt (by omega)] at digit
  contradiction

/-- The levels use up the address exactly when the size is a multiple of the
index above the page. -/
theorem whole_levels_iff {page index count bits : Nat}
    (reach : page + (count - 1) * index < bits)
    (covers : bits ≤ page + count * index) (above : page < bits) :
    (bits - page) % index = 0 ↔ bits = page + count * index := by
  constructor
  · intro multiple
    obtain ⟨levels, levelsEq⟩ := Nat.dvd_of_mod_eq_zero multiple
    rw [Nat.mul_comm] at levelsEq
    have lower : (count - 1) * index < levels * index := by omega
    have upper : levels * index ≤ count * index := by omega
    have more := Nat.lt_of_mul_lt_mul_right lower
    have positive : 0 < index := by
      by_contra zero
      rw [Nat.eq_zero_of_not_pos zero] at levelsEq
      omega
    have fewer := Nat.le_of_mul_le_mul_right upper positive
    have same : levels = count := by omega
    rw [← same]
    omega
  · intro exact
    rw [exact, Nat.add_sub_cancel_left]
    exact Nat.mul_mod_left count index

theorem slotOf_inj {table : UInt64} {left right : Nat}
    (tableBound : table.toNat < 2 ^ 48) (leftBound : left < 2 ^ 13)
    (rightBound : right < 2 ^ 13)
    (same : slotOf (table, left) = slotOf (table, right)) : left = right := by
  simp only [slotOf, Gpa.mk.injEq] at same
  have values := congrArg UInt64.toNat same
  rw [UInt64.toNat_ofNat_of_lt' (by unfold UInt64.size; omega),
    UInt64.toNat_ofNat_of_lt' (by unfold UInt64.size; omega)] at values
  omega

/-- Rounding down to the coarser of two powers is rounding down to the finer
where nothing of it is left over. -/
theorem aligned_down_eq_iff {value low high : Nat} (ordered : low ≤ high) :
    value / 2 ^ low * 2 ^ low = value / 2 ^ high * 2 ^ high ↔
      value % 2 ^ high / 2 ^ low = 0 := by
  have unit : 0 < 2 ^ low := Nat.two_pow_pos low
  obtain ⟨more, rfl⟩ := Nat.exists_eq_add_of_le ordered
  have quotient : value / 2 ^ low = value / 2 ^ (low + more) * 2 ^ more +
      value % 2 ^ (low + more) / 2 ^ low := by
    calc value / 2 ^ low
        = (2 ^ (low + more) * (value / 2 ^ (low + more)) +
            value % 2 ^ (low + more)) / 2 ^ low := by
          rw [Nat.div_add_mod]
      _ = 2 ^ more * (value / 2 ^ (low + more)) +
            value % 2 ^ (low + more) / 2 ^ low := by
          nth_rewrite 1 [Nat.pow_add]
          rw [Nat.mul_assoc, Nat.mul_add_div unit]
      _ = value / 2 ^ (low + more) * 2 ^ more +
            value % 2 ^ (low + more) / 2 ^ low := by
          rw [Nat.mul_comm]
  rw [quotient, Nat.add_mul, Nat.mul_assoc, ← Nat.pow_add, Nat.add_comm more]
  constructor
  · intro same
    have zero : value % 2 ^ (low + more) / 2 ^ low * 2 ^ low = 0 := by omega
    exact (Nat.mul_eq_zero.mp zero).resolve_right (by omega)
  · intro zero
    rw [zero, Nat.zero_mul, Nat.add_zero]

/-- The first descriptor that is read stands in the part of the initial table
that the configured size uses. -/
def StartsInside (translator : Aarch64Translator) (root : TranslationRoot)
    (reads : List Gpa) : Prop :=
  ∃ index, index < 2 ^ Vmsa.initialBits translator.granule
      translator.addressBits.toNat ∧
    reads.head? = some (slotOf (Tables.rootTable translator root, index))

/-- The descriptors read, and what they come to, are those of the
architecture's walk. -/
def MatchesReference (translator : Aarch64Translator) (memory : MemoryAccess)
    (root : TranslationRoot) (va : Gva) : Prop :=
  translator.translateReads memory root va =
      (Vmsa.walk translator.granule translator.addressBits.toNat memory root
        va).1 ∧
    translator.translate memory root va =
      (Vmsa.walk translator.granule translator.addressBits.toNat memory root
        va).2 ∧
    StartsInside translator root (translator.translateReads memory root va)

section Accepted

variable {granule : TranslationGranule} {addressBits : UInt8}

/-- An address that passes the check and is not in the lower half has ones from
the highest configured bit up. -/
theorem upper_of_not_lower (above : granule.pageShift.toNat < addressBits.toNat)
    (below : addressBits.toNat ≤ 48) {va : Gva}
    (checked : isCanonical va.raw addressBits = true)
    (notLower : ¬ va.raw.toNat < 2 ^ (addressBits.toNat - 1)) :
    va.raw.toNat / 2 ^ (addressBits.toNat - 1) =
      2 ^ (64 - (addressBits.toNat - 1)) - 1 := by
  apply ((isCanonical_iff (by omega) (by omega)).mp checked).resolve_left
  intro zero
  exact notLower (Nat.lt_of_div_eq_zero (Nat.two_pow_pos _) zero)

/-- The initial levels of the two walks, and the bits they resolve there. -/
theorem levelsBelow_eq {first : Nat}
    (reach : granule.pageShift.toNat + first * granule.indexBits.toNat <
      addressBits.toNat)
    (covers : addressBits.toNat ≤ granule.pageShift.toNat +
      (first + 1) * granule.indexBits.toNat) :
    Vmsa.levelsBelow granule addressBits.toNat = first ∧
      Vmsa.initialBits granule addressBits.toNat =
        addressBits.toNat - granule.entryShift first := by
  have levels : Vmsa.levelsBelow granule addressBits.toNat = first := by
    rw [Vmsa.levelsBelow, (granuleBits_eq granule).1,
      (granuleBits_eq granule).2]
    rw [Nat.succ_mul] at covers
    apply Nat.div_eq_of_lt_le
    · omega
    · rw [Nat.succ_mul]
      omega
  rw [Vmsa.initialBits, levels, resolved_eq]
  exact ⟨rfl, rfl⟩

/-- The initial table starts where the loop takes it to, unless the root says
that it starts within a page. -/
theorem initialTable_eq_iff {size : Nat} (root : TranslationRoot)
    (whole : Vmsa.initialBits granule size + 3 ≤ granule.pageShift.toNat) :
    Vmsa.initialTable granule size root.raw.toNat =
        (Tables.rootTable ⟨granule, addressBits⟩ root).toNat ↔
      root.raw.toNat % 2 ^ granule.pageShift.toNat /
        2 ^ (Vmsa.initialBits granule size + 3) = 0 := by
  have shape := granule.shape
  have low : root.raw.toNat % 2 ^ 48 % 2 ^ granule.pageShift.toNat =
      root.raw.toNat % 2 ^ granule.pageShift.toNat :=
    Nat.mod_mod_of_dvd _ (Nat.pow_dvd_pow 2 (by omega))
  rw [Vmsa.initialTable, Tables.rootTable, frameOf_toNat,
    aligned_down_eq_iff whole, low]

theorem initialTable_lt (granule : TranslationGranule) (size root : Nat) :
    Vmsa.initialTable granule size root < 2 ^ 48 := by
  have rounded := Nat.div_mul_le_self (root % 2 ^ 48)
    (2 ^ (Vmsa.initialBits granule size + 3))
  rw [Vmsa.initialTable]
  omega

theorem sameBits_of {first : Nat}
    (reach : granule.pageShift.toNat + first * granule.indexBits.toNat <
      addressBits.toNat) {va : UInt64}
    (inside : va.toNat < 2 ^ addressBits.toNat ∨
      addressBits.toNat = granule.pageShift.toNat +
        (first + 1) * granule.indexBits.toNat) :
    SameBits granule va (va.toNat % 2 ^ addressBits.toNat) first := by
  have shifts : ∀ below ≤ first, granule.entryShift below ≤
      granule.entryShift first :=
    fun below within => Nat.add_le_add_left (Nat.mul_le_mul_right _ within) _
  have reached : granule.entryShift first < addressBits.toNat := reach
  constructor
  · intro below within
    rcases inside with lower | whole
    · rw [Nat.mod_eq_of_lt lower]
    · apply input_digit
      have next : granule.entryShift (below + 1) ≤
          granule.entryShift (first + 1) :=
        Nat.add_le_add_left (Nat.mul_le_mul_right _ (by omega)) _
      rw [whole]
      unfold TranslationGranule.entryShift at next ⊢
      rw [Nat.succ_mul] at next
      omega
  · intro below within
    have ordered := shifts below within
    exact Nat.mod_mod_of_dvd _ (Nat.pow_dvd_pow 2 (by omega))

/-- Past the check, the loop is the search from its root table. -/
theorem translate_searched {first : Nat}
    (above : granule.pageShift.toNat < addressBits.toNat)
    (below : addressBits.toNat ≤ 48)
    (levels : Tables.levels ⟨granule, addressBits⟩ = first + 1)
    (memory : MemoryAccess) (root : TranslationRoot) {va : Gva}
    (checked : isCanonical va.raw addressBits = true) :
    (translateReads ⟨granule, addressBits⟩ memory root va,
        translate ⟨granule, addressBits⟩ memory root va) =
      searched granule memory va.raw (first + 1)
        (Tables.rootTable ⟨granule, addressBits⟩ root) := by
  obtain ⟨translated, reads⟩ :=
    translate_search above below memory root checked
  rw [translated, reads, Tables.lookups, levels]
  rfl

theorem searched_head (memory : MemoryAccess) (va : UInt64) (left : Nat)
    (table : UInt64) :
    (searched granule memory va (left + 1) table).1.head? =
      some (searchSlot granule va left table) :=
  rfl

theorem walkFrom_head (memory : MemoryAccess) (va : UInt64)
    (input left table : Nat) :
    (Vmsa.walkFrom granule memory va input left table).1.head? =
      some (Vmsa.slot granule left table input) := by
  rw [Vmsa.walkFrom]
  simp only
  split
  · rfl
  · split <;> rfl

/-- Where the first index stays in the initial table, the address is one of the
lower half or the table is whole. -/
theorem first_index_inside {first : Nat}
    (above : granule.pageShift.toNat < addressBits.toNat)
    (below : addressBits.toNat ≤ 48)
    (reach : granule.pageShift.toNat + first * granule.indexBits.toNat <
      addressBits.toNat)
    (covers : addressBits.toNat ≤ granule.pageShift.toNat +
      (first + 1) * granule.indexBits.toNat) {va : Gva}
    (checked : isCanonical va.raw addressBits = true)
    (small : va.raw.toNat / 2 ^ granule.entryShift first %
        2 ^ granule.indexBits.toNat <
      2 ^ (addressBits.toNat - granule.entryShift first)) :
    va.raw.toNat < 2 ^ (addressBits.toNat - 1) ∨
      (addressBits.toNat - granule.pageShift.toNat) %
        granule.indexBits.toNat = 0 := by
  by_contra failing
  obtain ⟨notLower, partly⟩ := not_or.mp failing
  have upper := upper_of_not_lower above below checked notLower
  have unequal :=
    mt (@whole_levels_iff _ _ (first + 1) _ reach covers above).mpr partly
  have wide : addressBits.toNat - granule.entryShift first <
      granule.indexBits.toNat := by
    unfold TranslationGranule.entryShift
    rw [Nat.succ_mul] at covers unequal
    omega
  -- The ones above the configured size take the loop past the part of the
  -- table that it uses.
  have outside := upper_digit (by omega) reach wide upper
  exact absurd small (Nat.not_lt.mpr outside)

/-- Where the first slots are the same, so are the initial tables. -/
theorem tables_of_slots {first size : Nat} {va : UInt64} {input : Nat}
    {root : TranslationRoot} (same : SameBits granule va input first)
    (slots : searchSlot granule va first
        (Tables.rootTable ⟨granule, addressBits⟩ root) =
      Vmsa.slot granule first
        (Vmsa.initialTable granule size root.raw.toNat) input) :
    Vmsa.initialTable granule size root.raw.toNat =
      (Tables.rootTable ⟨granule, addressBits⟩ root).toNat := by
  have shape := granule.shape
  have indexBound : 2 ^ granule.indexBits.toNat ≤ 2 ^ 13 :=
    Nat.pow_le_pow_right (by decide) (by omega)
  have digitBound : va.toNat / 2 ^ granule.entryShift first %
      2 ^ granule.indexBits.toNat < 2 ^ granule.indexBits.toNat :=
    Nat.mod_lt _ (Nat.two_pow_pos _)
  have rootBound := rootTable_lt granule addressBits root
  have tableBound := initialTable_lt granule size root.raw.toNat
  rw [Vmsa.slot, searchSlot, slotOf, (granuleBits_eq granule).2, resolved_eq,
    same.digits first (Nat.le_refl first), Gpa.mk.injEq] at slots
  simp only at slots
  have values := congrArg UInt64.toNat slots
  rw [UInt64.toNat_ofNat_of_lt' (by unfold UInt64.size; omega),
    UInt64.toNat_ofNat_of_lt' (by unfold UInt64.size; omega)] at values
  omega

/-- A block at level 1 of a granule without blocks there is a page to the loop,
and refused by the walk. -/
theorem answers_differ {first : Nat} (few : first ≤ 3) {memory : MemoryAccess}
    {root : TranslationRoot} {va : Gva} {input : Nat} {entry : UInt64}
    (levels : Tables.levels ⟨granule, addressBits⟩ = first + 1)
    (same : SameBits granule va.raw input first)
    (missing : 1 ∉ granule.blockLevels)
    (meets : MeetsBlock ⟨granule, addressBits⟩ memory root va 1 entry) :
    (searched granule memory va.raw (first + 1)
        (Tables.rootTable ⟨granule, addressBits⟩ root)).2 ≠
      (Vmsa.walkFrom granule memory va.raw input first
        (Tables.rootTable ⟨granule, addressBits⟩ root).toNat).2 := by
  obtain ⟨_, other, lower, sameLevels, leads, levelEq, present, block⟩ := meets
  obtain rfl : other = first := by omega
  have bound := leads.below_le
  have reserved := walkFrom_reserved leads same present block
    (show UInt8.ofNat (3 - lower) ∉ _ by rwa [← levelEq])
  have answered : (searched granule memory va.raw (other + 1)
      (Tables.rootTable ⟨granule, addressBits⟩ root)).2 = conclude va.raw
        (search granule memory va.raw other
          (Tables.rootTable ⟨granule, addressBits⟩ root)) := rfl
  rw [reserved, answered, search_block leads present block]
  rcases level_cases (Nat.le_trans bound few) with rfl | zero | low | high
  · cases levelEq
  · cases levelEq.trans zero
  · cases levelEq.trans low.2
  · simp [high.1, conclude]

end Accepted

/-- The loop is the architecture's walk exactly for an address of the lower half
or a size that fills whole tables, an initial table at the start of a page, and
tables that lead to no block at level 1 of a granule without blocks there. -/
theorem walk_matches_reference_iff {granule : TranslationGranule}
    {addressBits : UInt8} {translator : Aarch64Translator}
    (accepted : new granule addressBits = .ok translator)
    (memory : MemoryAccess) (root : TranslationRoot) (va : Gva)
    (checked : isCanonical va.raw addressBits = true) :
    MatchesReference translator memory root va ↔
      (va.raw.toNat < 2 ^ (addressBits.toNat - 1) ∨
        (addressBits.toNat - granule.pageShift.toNat) %
          granule.indexBits.toNat = 0) ∧
      root.raw.toNat % 2 ^ granule.pageShift.toNat /
        2 ^ (Vmsa.initialBits granule addressBits.toNat + 3) = 0 ∧
      ¬ (1 ∉ granule.blockLevels ∧
        ∃ entry, translator.MeetsBlock memory root va 1 entry) := by
  obtain ⟨rfl, above, below⟩ := new_eq_ok accepted
  obtain ⟨first, levels, reach, covers⟩ := tables_levels above below
  have shape := granule.shape
  have few := first_level_le reach below
  have canonical : SignExtended va.raw addressBits.toNat :=
    (isCanonical_iff (by omega) (by omega)).mp checked
  obtain ⟨levelsBelow, initialBits⟩ := levelsBelow_eq reach covers
  have walked := translate_searched above below levels memory root checked
  have readsEq := congrArg Prod.fst walked
  have answerEq := congrArg Prod.snd walked
  simp only at readsEq answerEq
  have reference : Vmsa.walk granule addressBits.toNat memory root va =
      Vmsa.walkFrom granule memory va.raw
        (va.raw.toNat % 2 ^ addressBits.toNat) first
        (Vmsa.initialTable granule addressBits.toNat root.raw.toNat) := by
    rw [Vmsa.walk, levelsBelow]
  have resolvedBits : addressBits.toNat - granule.entryShift first ≤
      granule.indexBits.toNat := by
    unfold TranslationGranule.entryShift
    rw [Nat.succ_mul] at covers
    omega
  have tables := @initialTable_eq_iff granule addressBits addressBits.toNat root
    (by omega)
  have sameBits : va.raw.toNat < 2 ^ (addressBits.toNat - 1) ∨
      (addressBits.toNat - granule.pageShift.toNat) %
        granule.indexBits.toNat = 0 →
      SameBits granule va.raw (va.raw.toNat % 2 ^ addressBits.toNat) first := by
    intro condition
    refine sameBits_of reach (condition.imp ?_ ?_)
    · intro lower
      exact Nat.lt_of_lt_of_le lower
        (Nat.pow_le_pow_right (by decide) (Nat.sub_le _ 1))
    · exact (@whole_levels_iff _ _ (first + 1) _ reach covers above).mp
  constructor
  · intro matched
    obtain ⟨sameReads, sameAnswer, index, small, starts⟩ := matched
    rw [reference, readsEq] at sameReads
    rw [reference, answerEq] at sameAnswer
    rw [readsEq, searched_head, Option.some.injEq] at starts
    rw [initialBits] at small
    have indexBound : 2 ^ granule.indexBits.toNat ≤ 2 ^ 13 :=
      Nat.pow_le_pow_right (by decide) (by omega)
    have partBound : 2 ^ (addressBits.toNat - granule.entryShift first) ≤
        2 ^ granule.indexBits.toNat :=
      Nat.pow_le_pow_right (by decide) resolvedBits
    have digitBound : va.raw.toNat / 2 ^ granule.entryShift first %
        2 ^ granule.indexBits.toNat < 2 ^ granule.indexBits.toNat :=
      Nat.mod_lt _ (Nat.two_pow_pos _)
    have digit := slotOf_inj (rootTable_lt granule addressBits root)
      (by omega) (by omega) starts
    have condition := first_index_inside above below reach covers checked
      (by rwa [digit])
    have same := sameBits condition
    have heads := congrArg List.head? sameReads
    rw [searched_head, walkFrom_head, Option.some.injEq] at heads
    have aligned := tables_of_slots same heads
    refine ⟨condition, tables.mp aligned, ?_⟩
    rintro ⟨missing, entry, meets⟩
    rw [aligned] at sameAnswer
    exact answers_differ few levels same missing meets sameAnswer
  · intro given
    obtain ⟨inside, aligned, legal⟩ := given
    have same := sameBits inside
    have legally : ∀ entry, LeadsTo granule memory va.raw first
        (Tables.rootTable ⟨granule, addressBits⟩ root) 2 entry →
          entry &&& valid ≠ 0 → entry &&& tableOrPage = 0 →
            1 ∈ granule.blockLevels := by
      intro entry leads present block
      by_contra missing
      exact legal ⟨missing, entry, canonical, first, 2, levels, leads, rfl,
        present, block⟩
    have agreed := walkFrom_eq few same legally
    rw [← tables.mpr aligned, ← reference] at agreed
    refine ⟨by rw [readsEq, agreed], by rw [answerEq, agreed], ?_⟩
    rw [StartsInside, readsEq, searched_head, initialBits]
    refine ⟨_, ?_, rfl⟩
    rw [← same.digits first (Nat.le_refl first)]
    exact input_digit_lt _ _ (Nat.le_of_lt reach)

/-- With 40 bits and 4 KiB pages the initial table has two entries, and the last
page of the address space is looked up in entry 511. -/
theorem walk_leaves_initial_table :
    new .kib4 40 = .ok ⟨.kib4, 40⟩ ∧
      isCanonical 0xfffffffffffff000 40 = true ∧
      translateReads ⟨.kib4, 40⟩ absentMemory ⟨0x10000⟩
        ⟨0xfffffffffffff000⟩ = [⟨0x10ff8⟩] ∧
      (Vmsa.walk .kib4 40 absentMemory ⟨0x10000⟩ ⟨0xfffffffffffff000⟩).1 =
        [⟨0x10008⟩] ∧
      ¬ MatchesReference ⟨.kib4, 40⟩ absentMemory ⟨0x10000⟩
        ⟨0xfffffffffffff000⟩ := by
  have taken : translateReads ⟨.kib4, 40⟩ absentMemory ⟨0x10000⟩
      ⟨0xfffffffffffff000⟩ = [⟨0x10ff8⟩] := by
    decide
  have wanted : (Vmsa.walk .kib4 40 absentMemory ⟨0x10000⟩
      ⟨0xfffffffffffff000⟩).1 = [⟨0x10008⟩] := by
    decide
  refine ⟨rfl, by decide, taken, wanted, ?_⟩
  intro matched
  have same := taken.symm.trans (matched.1.trans wanted)
  contradiction

/-- A root table of table descriptors, and one of pages. -/
def twoTables : MemoryAccess where
  readInto := fun address length =>
    if whole : length = 8 then
      .ok ⟨toLe 8 (if address.raw < 0x1000 then 0x1003 else 0x5003), by
        rw [whole]
        exact toLe_length ..⟩
    else .error (.readFailed address.raw length)

/-- With 30 bits and 4 KiB pages both tables are whole. -/
theorem walk_matches_reference_whole_levels :
    MatchesReference ⟨.kib4, 30⟩ twoTables ⟨0⟩ ⟨0xffffffffffffe123⟩ ∧
      Vmsa.walk .kib4 30 twoTables ⟨0⟩ ⟨0xffffffffffffe123⟩ =
        ([⟨0xff8⟩, ⟨0x1ff0⟩], .ok ⟨⟨0x5123⟩, 0x1000⟩) :=
  ⟨(@walk_matches_reference_iff .kib4 30 _ rfl twoTables ⟨0⟩
    ⟨0xffffffffffffe123⟩ (by decide)).mpr
      ⟨.inr (by decide), by decide, fun illegal => illegal.1 (by decide)⟩,
    by decide +kernel⟩

end Aarch64Translator

end LibVmi.Arch.Aarch64
