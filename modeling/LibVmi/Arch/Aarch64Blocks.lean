import LibVmi.Arch.Aarch64Walk

namespace LibVmi.Arch.Aarch64

open Data

/-! Blocks stand at few levels of the 48-bit descriptor format, and at which
depends on the granule. -/

namespace TranslationGranule

def blockLevels : TranslationGranule → List UInt8
  | .kib4 => [1, 2]
  | .kib16 => [2]
  | .kib64 => [2]

/-- The size of a page, and those of the blocks. -/
def mappedSizes : TranslationGranule → List UInt64
  | .kib4 => [0x1000, 0x200000, 0x40000000]
  | .kib16 => [0x4000, 0x2000000]
  | .kib64 => [0x10000, 0x20000000]

def pageMask (granule : TranslationGranule) : UInt64 :=
  UInt64.ofNat (2 ^ granule.pageShift.toNat - 1)

/-- What one descriptor maps that has `left` levels below it. -/
def entryShift (granule : TranslationGranule) (left : Nat) : Nat :=
  granule.pageShift.toNat + left * granule.indexBits.toNat

end TranslationGranule

namespace Aarch64Translator

/-- The descriptor that a table holds for an address. -/
def descriptor (granule : TranslationGranule) (memory : MemoryAccess)
    (va : UInt64) (left : Nat) (table : UInt64) : Except Fault UInt64 :=
  fetchEntry memory table
    (va.toNat / 2 ^ granule.entryShift left % 2 ^ granule.indexBits.toNat)

/-- From a table with `left` levels below it, table descriptors lead to the
descriptor with `below` levels below it. -/
inductive LeadsTo (granule : TranslationGranule) (memory : MemoryAccess)
    (va : UInt64) : (left : Nat) → (table : UInt64) → (below : Nat) →
    (entry : UInt64) → Prop
  | here {left : Nat} {table entry : UInt64}
      (held : descriptor granule memory va left table = .ok entry) :
      LeadsTo granule memory va left table left entry
  | down {left below : Nat} {table upper entry : UInt64}
      (held : descriptor granule memory va (left + 1) table = .ok upper)
      (present : upper &&& valid ≠ 0) (leads : upper &&& tableOrPage ≠ 0)
      (rest : LeadsTo granule memory va left
        (upper &&& physicalAddressMask &&& ~~~granule.pageMask) below entry) :
      LeadsTo granule memory va (left + 1) table below entry

/-- The tables lead the address to a block descriptor at the level. -/
def MeetsBlock (translator : Aarch64Translator) (memory : MemoryAccess)
    (root : TranslationRoot) (va : Gva) (level : UInt8) (entry : UInt64) :
    Prop :=
  SignExtended va.raw translator.addressBits.toNat ∧
    ∃ first below, Tables.levels translator = first + 1 ∧
      LeadsTo translator.granule memory va.raw first
        (Tables.rootTable translator root) below entry ∧
      level = UInt8.ofNat (3 - below) ∧ entry &&& valid ≠ 0 ∧
      entry &&& tableOrPage = 0

section Search

variable {granule : TranslationGranule} {memory : MemoryAccess} {va : UInt64}

/-- The search of the levels from `left` down. -/
def search (granule : TranslationGranule) (memory : MemoryAccess)
    (va : UInt64) (left : Nat) (table : UInt64) :
    Except Fault (RadixWalk.Leaf UInt64) :=
  RadixWalk.resolve (fetchEntry memory) (2 ^ granule.indexBits.toNat)
    (.other (.backend "AArch64 translation completed without a page or block"))
    va.toNat
    (levelsFrom granule.pageShift.toNat granule.indexBits.toNat
      granule.pageMask (left + 1)) table

theorem search_eq (left : Nat) (table : UInt64) :
    search granule memory va left table = (do
      let entry ← descriptor granule memory va left table
      match decideEntry granule.pageMask left (granule.entryShift left)
          entry with
      | .fail fault => .error fault
      | .descend next =>
          RadixWalk.resolve (fetchEntry memory) (2 ^ granule.indexBits.toNat)
            (.other (.backend
              "AArch64 translation completed without a page or block"))
            va.toNat
            (levelsFrom granule.pageShift.toNat granule.indexBits.toNat
              granule.pageMask left) next
      | .leaf frame => .ok ⟨frame, granule.entryShift left⟩) := by
  simp only [search, levelsFrom, RadixWalk.resolve, descriptor,
    TranslationGranule.entryShift]
  cases fetchEntry memory table _ with
  | error fault => rfl
  | ok entry =>
      simp only [ok_bind]
      cases decideEntry granule.pageMask left _ entry <;> rfl

/-- What a search finds is a page, or the block of a level other than the
first. -/
theorem search_found {left : Nat} {table : UInt64}
    {leaf : RadixWalk.Leaf UInt64}
    (found : search granule memory va left table = .ok leaf) :
    ∃ below entry, LeadsTo granule memory va left table below entry ∧
      leaf.shift = granule.entryShift below ∧ below ≤ left ∧
      (0 < below → UInt8.ofNat (3 - below) ≠ 0 ∧ entry &&& valid ≠ 0 ∧
        entry &&& tableOrPage = 0) := by
  induction left generalizing table with
  | zero =>
      rw [search_eq] at found
      obtain ⟨entry, held, decided⟩ := bind_eq_ok.mp found
      refine ⟨0, entry, .here held, ?_, Nat.le_refl 0, ?_⟩
      · simp only [decideEntry] at decided
        split_ifs at decided
        cases decided
        rfl
      · intro positive
        exact absurd positive (Nat.lt_irrefl 0)
  | succ left induction =>
      rw [search_eq] at found
      obtain ⟨entry, held, decided⟩ := bind_eq_ok.mp found
      simp only [decideEntry, Nat.add_one_ne_zero, if_false] at decided
      split_ifs at decided with absent leads top
      · obtain ⟨below, lower, rest, shiftEq, within, block⟩ :=
          induction decided
        exact ⟨below, lower, .down held absent leads rest, shiftEq,
          Nat.le_succ_of_le within, block⟩
      · cases decided
        exact ⟨left + 1, entry, .here held, rfl, Nat.le_refl _,
          fun _ => ⟨top, absent, not_not.mp leads⟩⟩

/-- A block descriptor ends the search: in a fault at the first level and at the
last, and in a leaf everywhere else. -/
theorem search_block {left below : Nat} {table entry : UInt64}
    (leads : LeadsTo granule memory va left table below entry)
    (present : entry &&& valid ≠ 0) (block : entry &&& tableOrPage = 0) :
    search granule memory va left table =
      if below = 0 ∨ UInt8.ofNat (3 - below) = 0 then
        .error (.other (.invalidPageTableEntry entry
          (UInt8.ofNat (3 - below))))
      else
        .ok ⟨frameOf entry (granule.entryShift below),
          granule.entryShift below⟩ := by
  induction leads with
  | @here left table entry held =>
      rw [search_eq, held, ok_bind]
      simp only [decideEntry, present, block, if_false, ne_eq,
        not_true_eq_false, if_true]
      by_cases bottom : left = 0
      · simp [bottom]
      · simp only [bottom, if_false, false_or]
        by_cases top : UInt8.ofNat (3 - left) = 0
        · rw [if_pos top, if_pos top]
        · rw [if_neg top, if_neg top]
  | @down left below table upper entry held upperPresent upperLeads _
      induction =>
      rw [search_eq, held, ok_bind]
      simp only [decideEntry, upperPresent, upperLeads, if_false,
        Nat.add_one_ne_zero, ne_eq, not_false_eq_true, if_true]
      exact induction present block

theorem LeadsTo.below_le {left below : Nat} {table entry : UInt64}
    (leads : LeadsTo granule memory va left table below entry) :
    below ≤ left := by
  induction leads with
  | here held => exact Nat.le_refl _
  | down held present leads rest induction => exact Nat.le_succ_of_le induction

end Search

/-- What the format asks of a translation: it ends in a page or a block of the
granule, and a block descriptor at any other level is a fault. -/
def MapsLegally (translator : Aarch64Translator) (memory : MemoryAccess)
    (root : TranslationRoot) (va : Gva) : Prop :=
  (∀ found, translator.translate memory root va = .ok found →
    found.pageSize ∈ translator.granule.mappedSizes) ∧
  ∀ level entry, translator.MeetsBlock memory root va level entry →
    level ∉ translator.granule.blockLevels →
      translator.translate memory root va =
        .error (.invalidPageTableEntry entry level)

section Accepted

variable {granule : TranslationGranule} {addressBits : UInt8}

/-- An accepted translator searches at most four levels. -/
theorem first_level_le {first : Nat}
    (reach : granule.pageShift.toNat + first * granule.indexBits.toNat <
      addressBits.toNat)
    (below : addressBits.toNat ≤ 48) : first ≤ 3 := by
  cases granule <;>
    simp only [TranslationGranule.pageShift, TranslationGranule.indexBits,
      UInt8.reduceToNat] at reach <;>
    omega

theorem translate_eq_search {first : Nat}
    (above : granule.pageShift.toNat < addressBits.toNat)
    (below : addressBits.toNat ≤ 48)
    (levels : Tables.levels ⟨granule, addressBits⟩ = first + 1)
    (memory : MemoryAccess) (root : TranslationRoot) {va : Gva}
    (canonical : SignExtended va.raw addressBits.toNat) :
    translate ⟨granule, addressBits⟩ memory root va =
      conclude va.raw (search granule memory va.raw first
        (Tables.rootTable ⟨granule, addressBits⟩ root)) := by
  have shape := granule.shape
  have checked : isCanonical va.raw addressBits = true :=
    (isCanonical_iff (by omega) (by omega)).mpr canonical
  rw [(translate_search above below memory root checked).1,
    Tables.lookups, levels]
  rfl

/-- Only addresses that pass the check are translated. -/
theorem canonical_of_translated
    (above : granule.pageShift.toNat < addressBits.toNat)
    (below : addressBits.toNat ≤ 48) {memory : MemoryAccess}
    {root : TranslationRoot} {va : Gva} {found : Translation}
    (translated : translate ⟨granule, addressBits⟩ memory root va =
      .ok found) :
    SignExtended va.raw addressBits.toNat := by
  have shape := granule.shape
  rw [← isCanonical_iff (by omega) (by omega)]
  by_contra unchecked
  rw [translate_eq, if_neg unchecked] at translated
  contradiction

/-- The levels that a descriptor can stand at. -/
theorem level_cases {below : Nat} (few : below ≤ 3) :
    below = 0 ∨ UInt8.ofNat (3 - below) = 0 ∨
      (below = 1 ∧ UInt8.ofNat (3 - below) = 2) ∨
      (below = 2 ∧ UInt8.ofNat (3 - below) = 1) := by
  match below with
  | 0 => decide
  | 1 => decide
  | 2 => decide
  | 3 => decide
  | rest + 4 => omega

theorem page_mapped (granule : TranslationGranule) :
    UInt64.ofNat (2 ^ granule.entryShift 0) ∈ granule.mappedSizes := by
  cases granule <;> decide

theorem low_block_mapped (granule : TranslationGranule) :
    2 ∈ granule.blockLevels ∧
      UInt64.ofNat (2 ^ granule.entryShift 1) ∈ granule.mappedSizes := by
  cases granule <;> decide

theorem high_block_mapped {granule : TranslationGranule}
    (admitted : 1 ∈ granule.blockLevels) :
    UInt64.ofNat (2 ^ granule.entryShift 2) ∈ granule.mappedSizes := by
  cases granule with
  | kib4 => decide
  | kib16 => simp [TranslationGranule.blockLevels] at admitted
  | kib64 => simp [TranslationGranule.blockLevels] at admitted

end Accepted

/-- The format's blocks are kept to exactly when the tables lead the address to
no block descriptor at level 1 of a granule that has none there. -/
theorem maps_legally_iff {granule : TranslationGranule} {addressBits : UInt8}
    {translator : Aarch64Translator}
    (accepted : new granule addressBits = .ok translator)
    (memory : MemoryAccess) (root : TranslationRoot) (va : Gva) :
    translator.MapsLegally memory root va ↔
      ¬ (1 ∉ granule.blockLevels ∧
        ∃ entry, translator.MeetsBlock memory root va 1 entry) := by
  obtain ⟨rfl, above, within⟩ := new_eq_ok accepted
  obtain ⟨first, levels, reach, _⟩ := tables_levels above within
  have few := first_level_le reach within
  have searches := fun canonical : SignExtended va.raw addressBits.toNat =>
    translate_eq_search above within levels memory root canonical
  constructor
  · intro legal illegal
    obtain ⟨missing, entry, meets⟩ := illegal
    have refused := legal.2 1 entry meets missing
    obtain ⟨canonical, other, below, sameLevels, leads, level, present,
      block⟩ := meets
    obtain rfl : other = first := by omega
    rw [searches canonical, search_block leads present block] at refused
    have bound := leads.below_le
    rcases level_cases (Nat.le_trans bound few) with rfl | top | low | high
    · cases level
    · cases level.trans top
    · cases level.trans low.2
    · simp [high.1, conclude] at refused
  · intro noBlock
    constructor
    · intro found translated
      have canonical := canonical_of_translated above within translated
      rw [searches canonical] at translated
      cases searched : search granule memory va.raw first
          (Tables.rootTable ⟨granule, addressBits⟩ root) with
      | error fault => simp [searched, conclude] at translated
      | ok leaf =>
          rw [searched] at translated
          cases translated
          obtain ⟨below, entry, leads, shiftEq, bound, block⟩ :=
            search_found searched
          simp only [place, shiftEq]
          rcases level_cases (Nat.le_trans bound few) with
            rfl | top | low | high
          · exact page_mapped granule
          · rcases Nat.eq_zero_or_pos below with rfl | positive
            · exact page_mapped granule
            · exact absurd top (block positive).1
          · rw [low.1]
            exact (low_block_mapped granule).2
          · obtain ⟨_, present, cleared⟩ := block (by omega)
            rw [high.1]
            apply high_block_mapped
            by_contra missing
            exact noBlock ⟨missing, entry, canonical, first, below, levels,
              leads, high.2.symm, present, cleared⟩
    · intro level entry meets missing
      obtain ⟨canonical, other, below, sameLevels, leads, levelEq, present,
        block⟩ := id meets
      obtain rfl : other = first := by omega
      rw [searches canonical, search_block leads present block, levelEq]
      have bound := leads.below_le
      rcases level_cases (Nat.le_trans bound few) with rfl | top | low | high
      · rfl
      · simp [top, conclude, Fault.report]
      · rw [levelEq, low.2] at missing
        exact absurd (low_block_mapped granule).1 missing
      · rw [levelEq, high.2] at meets missing
        exact absurd ⟨missing, entry, meets⟩ noBlock

/-- One descriptor in the root table, of a block of 4 TiB. -/
def blockAtLevelOne : MemoryAccess :=
  ⟨FlatMemory.readInto ⟨toLe 8 1⟩⟩

/-- A granule of 64 KiB has no blocks above level 2, and one is accepted. -/
theorem level_one_block_accepted :
    new .kib64 48 = .ok ⟨.kib64, 48⟩ ∧
      translate ⟨.kib64, 48⟩ blockAtLevelOne ⟨0⟩ ⟨0x1234⟩ =
        .ok ⟨⟨0x1234⟩, 0x40000000000⟩ ∧
      ¬ MapsLegally ⟨.kib64, 48⟩ blockAtLevelOne ⟨0⟩ ⟨0x1234⟩ := by
  have answer : translate ⟨.kib64, 48⟩ blockAtLevelOne ⟨0⟩ ⟨0x1234⟩ =
      .ok ⟨⟨0x1234⟩, 0x40000000000⟩ := by
    decide
  refine ⟨rfl, answer, ?_⟩
  intro legal
  have member := legal.1 _ answer
  revert member
  decide

theorem maps_legally_kib4 :
    MapsLegally ⟨.kib4, 48⟩ blockAtLevelOne ⟨0⟩ ⟨0x1234⟩ := by
  apply (@maps_legally_iff .kib4 48 _ rfl blockAtLevelOne ⟨0⟩ ⟨0x1234⟩).mpr
  intro illegal
  exact illegal.1 (by decide)

end Aarch64Translator

end LibVmi.Arch.Aarch64
