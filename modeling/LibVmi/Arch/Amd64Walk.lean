import LibVmi.Arch.Amd64

namespace LibVmi.Arch.Amd64

open Data

/-! The page-table walk in numbers. Levels count down to one, and the tables of
a walk are reached through present entries that map no page. -/

/-- Bits 51 down to `low`, in place. -/
def frameBits (low : Nat) (value : UInt64) : Nat :=
  value.toNat % 2 ^ 52 / 2 ^ low * 2 ^ low

def levelShift (level : Nat) : Nat := 12 + 9 * (level - 1)

/-- Where the entry for an address stands in a table. -/
def slot (va : UInt64) (level table : Nat) : Gpa :=
  ⟨UInt64.ofNat (table + 8 * (va.toNat / 2 ^ levelShift level % 512))⟩

def BitSet (position : Nat) (entry : UInt64) : Prop :=
  entry.toNat / 2 ^ position % 2 = 1

instance decidableBitSet (position : Nat) (entry : UInt64) :
    Decidable (BitSet position entry) :=
  inferInstanceAs (Decidable (_ = _))

inductive Reaches (memory : MemoryAccess) (root : TranslationRoot)
    (va : UInt64) (top : Nat) : (level table : Nat) → Prop
  | root : Reaches memory root va top top (frameBits 12 root.raw)
  | next {level table : Nat} {entry : UInt64}
      (above : Reaches memory root va top (level + 1) table)
      (read : EntryAt memory (slot va (level + 1) table) entry)
      (present : BitSet 0 entry) (maps : ¬ BitSet 7 entry)
      (positive : 0 < level) :
      Reaches memory root va top level (frameBits 12 entry)

theorem present_iff (entry : UInt64) :
    entry &&& present = 0 ↔ ¬ BitSet 0 entry := by
  rw [and_bit_eq_zero_iff entry present (show present.toNat = 2 ^ 0 by decide),
    BitSet]
  omega

theorem large_iff (entry : UInt64) :
    entry &&& large = 0 ↔ ¬ BitSet 7 entry := by
  rw [and_bit_eq_zero_iff entry large (show large.toNat = 2 ^ 7 by decide),
    BitSet]
  omega

private theorem frameBits_eq {entry mask : UInt64} {low : Nat}
    (ordered : low ≤ 52) (maskEq : mask.toNat = 2 ^ 52 - 2 ^ low) :
    (entry &&& mask).toNat = frameBits low entry :=
  and_range_mask_toNat entry mask low 52 ordered maskEq

/-- What a level does with an entry, in the order in which it asks. -/
theorem decideEntry_cases {level : Nat} (positive : 0 < level)
    (short : level ≤ 5) (entry : UInt64) :
    (¬ BitSet 0 entry ∧ decideEntry (UInt8.ofNat level) entry =
      .fail (.notPresent (UInt8.ofNat level))) ∨
    (BitSet 0 entry ∧ BitSet 7 entry ∧ (level = 1 ∨ 3 < level) ∧
      decideEntry (UInt8.ofNat level) entry =
        .fail (.other (.invalidPageTableEntry entry (UInt8.ofNat level)))) ∨
    (BitSet 0 entry ∧ (BitSet 7 entry ↔ 1 < level) ∧ level ≤ 3 ∧
      ∃ frame, decideEntry (UInt8.ofNat level) entry = .leaf frame ∧
        frame.toNat = frameBits (levelShift level) entry) ∨
    (BitSet 0 entry ∧ ¬ BitSet 7 entry ∧ 1 < level ∧
      ∃ next, decideEntry (UInt8.ofNat level) entry = .descend next ∧
        next.toNat = frameBits 12 entry) := by
  have levels : level = 1 ∨ level = 2 ∨ level = 3 ∨ level = 4 ∨ level = 5 := by
    omega
  by_cases absent : entry &&& present = 0
  · exact .inl ⟨(present_iff entry).mp absent, if_pos absent⟩
  · have isPresent : BitSet 0 entry := by
      simpa using mt (present_iff entry).mpr absent
    refine .inr ?_
    by_cases clear : entry &&& large = 0
    · have noPage := (large_iff entry).mp clear
      refine .inr ?_
      rcases levels with rfl | rfl | rfl | rfl | rfl
      · refine .inl ⟨isPresent, by simpa using noPage, by decide,
          entry &&& addressMask, ?_, frameBits_eq (by decide) (by decide)⟩
        simp [decideEntry, absent, clear]
      all_goals
        refine .inr ⟨isPresent, noPage, by decide, entry &&& addressMask, ?_,
          frameBits_eq (by decide) (by decide)⟩
        simp [decideEntry, absent, clear]
    · have hasPage : BitSet 7 entry := by
        simpa using mt (large_iff entry).mpr clear
      rcases levels with rfl | rfl | rfl | rfl | rfl
      · refine .inl ⟨isPresent, hasPage, .inl rfl, ?_⟩
        simp [decideEntry, absent, clear]
      · refine .inr (.inl ⟨isPresent, by simpa using hasPage, by decide,
          entry &&& 0x000fffffffe00000, ?_,
          frameBits_eq (by decide) (by decide)⟩)
        simp [decideEntry, absent, clear]
      · refine .inr (.inl ⟨isPresent, by simpa using hasPage, by decide,
          entry &&& 0x000fffffc0000000, ?_,
          frameBits_eq (by decide) (by decide)⟩)
        simp [decideEntry, absent, clear]
      all_goals
        refine .inl ⟨isPresent, hasPage, .inr (by decide), ?_⟩
        simp [decideEntry, absent, clear]

section Walk

variable {memory : MemoryAccess} {root : TranslationRoot} {va : UInt64}
  {top : Nat}

theorem Reaches.positive (levels : 0 < top) {level table : Nat}
    (reached : Reaches memory root va top level table) : 0 < level := by
  cases reached with
  | root => exact levels
  | next _ _ _ _ positive => exact positive

theorem Reaches.le_top {level table : Nat}
    (reached : Reaches memory root va top level table) : level ≤ top := by
  induction reached with
  | root => exact Nat.le_refl top
  | next _ _ _ _ _ induction => exact Nat.le_of_succ_le induction

private theorem slot_eq {shift : UInt8} {rest : List UInt8}
    (graduated : Graduated (shift :: rest)) (va table : UInt64) :
    (⟨UInt64.ofNat (table.toNat + va.toNat / 2 ^ shift.toNat % 512 * 8)⟩ : Gpa) =
      slot va (rest.length + 1) table.toNat := by
  rw [slot, graduated.1, Nat.mul_comm 8]
  rfl

/-- A leaf is the entry of a table that the walk reaches. -/
theorem resolve_found (levels : 0 < top) {exhausted : Fault}
    {shifts : List UInt8} (graduated : Graduated shifts)
    (short : shifts.length ≤ 5) {table : UInt64}
    (reached : Reaches memory root va top shifts.length table.toNat)
    {leaf : RadixWalk.Leaf UInt64}
    (resolved : RadixWalk.resolve (fetchEntry memory) 512 exhausted va.toNat
      (levelsOf shifts) table = .ok leaf) :
    ∃ level last entry, Reaches memory root va top level last ∧ level ≤ 3 ∧
      EntryAt memory (slot va level last) entry ∧ BitSet 0 entry ∧
      (BitSet 7 entry ↔ 1 < level) ∧
      leaf.found.toNat = frameBits (levelShift level) entry ∧
      leaf.shift = levelShift level := by
  induction shifts generalizing table with
  | nil => exact absurd (reached.positive levels) (Nat.lt_irrefl 0)
  | cons shift rest induction =>
      simp only [levelsOf, RadixWalk.resolve] at resolved
      obtain ⟨entry, fetched, decided⟩ := bind_eq_ok.mp resolved
      rw [fetchEntry_eq_ok, slot_eq graduated] at fetched
      rw [List.length_cons] at reached short
      rcases decideEntry_cases (show 0 < rest.length + 1 by omega) short
          entry with
        ⟨_, decision⟩ | ⟨_, _, _, decision⟩ |
        ⟨present, leafBit, low, frame, decision, frameEq⟩ |
        ⟨present, clear, deep, next, decision, nextEq⟩
      · rw [decision] at decided
        contradiction
      · rw [decision] at decided
        contradiction
      · simp only [decision, Except.ok.injEq] at decided
        subst leaf
        exact ⟨rest.length + 1, table.toNat, entry, reached, low, fetched,
          present, leafBit, frameEq, graduated.1⟩
      · simp only [decision] at decided
        have below := Reaches.next reached fetched present clear (by omega)
        rw [← nextEq] at below
        exact induction graduated.2 (by omega) below decided

/-- A walk fails at an entry that is missing, reserved or cannot be read. -/
theorem resolve_failed (levels : 0 < top) {exhausted : Fault}
    {shifts : List UInt8} (graduated : Graduated shifts)
    (short : shifts.length ≤ 5) {table : UInt64}
    (reached : Reaches memory root va top shifts.length table.toNat)
    {fault : Fault}
    (resolved : RadixWalk.resolve (fetchEntry memory) 512 exhausted va.toNat
      (levelsOf shifts) table = .error fault) :
    ∃ level last, Reaches memory root va top level last ∧
      ((∃ entry, EntryAt memory (slot va level last) entry ∧
          ¬ BitSet 0 entry ∧ fault = .notPresent (UInt8.ofNat level)) ∨
        (∃ entry, EntryAt memory (slot va level last) entry ∧
          BitSet 0 entry ∧ BitSet 7 entry ∧ (level = 1 ∨ 3 < level) ∧
          fault = .other (.invalidPageTableEntry entry (UInt8.ofNat level))) ∨
        ∃ error, memory.readInto (slot va level last) 8 = .error error ∧
          fault = .other error) := by
  induction shifts generalizing table with
  | nil => exact absurd (reached.positive levels) (Nat.lt_irrefl 0)
  | cons shift rest induction =>
      simp only [levelsOf, RadixWalk.resolve] at resolved
      rw [List.length_cons] at reached short
      rcases bind_eq_error.mp resolved with failed | ⟨entry, fetched, decided⟩
      · rw [fetchEntry_eq_error, slot_eq graduated] at failed
        exact ⟨rest.length + 1, table.toNat, reached, .inr (.inr failed)⟩
      · rw [fetchEntry_eq_ok, slot_eq graduated] at fetched
        rcases decideEntry_cases (show 0 < rest.length + 1 by omega) short
          entry with
          ⟨absent, decision⟩ | ⟨present, page, odd, decision⟩ |
          ⟨_, _, _, frame, decision, _⟩ |
          ⟨present, clear, deep, next, decision, nextEq⟩
        · simp only [decision, Except.error.injEq] at decided
          exact ⟨rest.length + 1, table.toNat, reached,
            .inl ⟨entry, fetched, absent, decided.symm⟩⟩
        · simp only [decision, Except.error.injEq] at decided
          exact ⟨rest.length + 1, table.toNat, reached,
            .inr (.inl ⟨entry, fetched, present, page, odd, decided.symm⟩)⟩
        · rw [decision] at decided
          contradiction
        · simp only [decision] at decided
          have below := Reaches.next reached fetched present clear (by omega)
          rw [← nextEq] at below
          exact induction graduated.2 (by omega) below decided

end Walk

/-- What a successful and a failed translation say about the tables in
memory. -/
structure WalkSound (translator : AddressTranslator) (bits : UInt8)
    (top : Nat) : Prop where
  found : ∀ memory root va translation,
    translator.translate memory root va = .ok translation →
      SignExtended va.raw bits.toNat ∧
      ∃ level table entry, Reaches memory root va.raw top level table ∧
        (level = 1 ∨ level = 2 ∨ level = 3) ∧
        EntryAt memory (slot va.raw level table) entry ∧
        BitSet 0 entry ∧ (BitSet 7 entry ↔ 1 < level) ∧
        translation.pageSize.toNat = 2 ^ (12 + 9 * (level - 1)) ∧
        translation.physicalAddress.raw.toNat =
          frameBits (12 + 9 * (level - 1)) entry +
            va.raw.toNat % translation.pageSize.toNat ∧
        translation.physicalAddress.raw.toNat < 2 ^ 52
  rejected : ∀ memory root va, ¬ SignExtended va.raw bits.toNat →
    translator.translate memory root va =
      .error (.nonCanonicalAddress va.raw bits)
  failed : ∀ memory root va error, SignExtended va.raw bits.toNat →
    translator.translate memory root va = .error error →
      ∃ level table, Reaches memory root va.raw top level table ∧
        ((∃ entry, EntryAt memory (slot va.raw level table) entry ∧
            ¬ BitSet 0 entry ∧
            error = .pageNotPresent va.raw (UInt8.ofNat level)) ∨
          (∃ entry, EntryAt memory (slot va.raw level table) entry ∧
            BitSet 0 entry ∧ BitSet 7 entry ∧ (level = 1 ∨ 3 < level) ∧
            error = .invalidPageTableEntry entry (UInt8.ofNat level)) ∨
          memory.readInto (slot va.raw level table) 8 = .error error)

theorem frameBits_add_lt {low offset : Nat} (ordered : low ≤ 52)
    (value : UInt64) (below : offset < 2 ^ low) :
    frameBits low value + offset < 2 ^ 52 := by
  have split : 2 ^ 52 = 2 ^ (52 - low) * 2 ^ low := by
    rw [← Nat.pow_add, Nat.sub_add_cancel ordered]
  have quotient : value.toNat % 2 ^ 52 / 2 ^ low < 2 ^ (52 - low) := by
    rw [Nat.div_lt_iff_lt_mul (Nat.two_pow_pos low), ← split]
    exact Nat.mod_lt _ (by decide)
  unfold frameBits
  calc
    value.toNat % 2 ^ 52 / 2 ^ low * 2 ^ low + offset
        < (value.toNat % 2 ^ 52 / 2 ^ low + 1) * 2 ^ low := by
      rw [Nat.add_mul]
      omega
    _ ≤ 2 ^ (52 - low) * 2 ^ low := Nat.mul_le_mul_right _ quotient
    _ = 2 ^ 52 := split.symm

theorem walkSound (tag : UInt64) (bits : UInt8) (shifts : List UInt8)
    (graduated : Graduated shifts) (nonempty : 0 < shifts.length)
    (short : shifts.length ≤ 5) (page : 13 ≤ bits.toNat)
    (below : bits.toNat < 64)
    (covered : 12 + 9 * shifts.length ≤ bits.toNat + 8) :
    WalkSound ⟨tag, fun memory root address =>
      translateLevels memory root address bits shifts⟩ bits
      shifts.length where
  found := by
    intro memory root va translation translated
    let form := walkForm tag bits shifts graduated short page below covered
    obtain ⟨canonical, leaf, resolved, rfl⟩ := form.translate_ok translated
    have rootEq : (root.raw &&& addressMask).toNat = frameBits 12 root.raw :=
      frameBits_eq (by decide) (by decide)
    obtain ⟨level, table, entry, reached, low, read, present, leafBit, frameEq,
      shiftEq⟩ := resolve_found nonempty graduated short
        (rootEq ▸ Reaches.root) resolved
    have positive := reached.positive nonempty
    have fits := RadixWalk.resolve_leaf_property _ form.frames resolved
    obtain ⟨physicalEq, sizeEq⟩ := WalkForm.place_toNat va.raw fits
    rw [shiftEq] at sizeEq
    rw [frameEq, shiftEq] at physicalEq
    refine ⟨canonical, level, table, entry, reached, by omega, read, present,
      leafBit, sizeEq, ?_, ?_⟩
    · rw [physicalEq, sizeEq]
      rfl
    · rw [physicalEq]
      exact frameBits_add_lt (by unfold levelShift; omega) entry
        (Nat.mod_lt _ (Nat.two_pow_pos _))
  rejected :=
    (walkForm tag bits shifts graduated short page below covered).rejected
  failed := by
    intro memory root va error canonical translated
    let form := walkForm tag bits shifts graduated short page below covered
    rw [form.accepted memory root va canonical] at translated
    have rootEq : (root.raw &&& addressMask).toNat = frameBits 12 root.raw :=
      frameBits_eq (by decide) (by decide)
    cases resolved : RadixWalk.resolve (fetchEntry memory) form.size
        form.exhausted va.raw.toNat form.levels (form.rootTable root) with
    | ok leaf => simp [resolved, conclude] at translated
    | error fault =>
        simp only [resolved, conclude, Except.error.injEq] at translated
        obtain ⟨level, table, reached, reasons⟩ := resolve_failed nonempty
          graduated short (rootEq ▸ Reaches.root) resolved
        refine ⟨level, table, reached, ?_⟩
        rw [← translated]
        rcases reasons with ⟨entry, read, absent, rfl⟩ |
          ⟨entry, read, present, bit, odd, rfl⟩ | ⟨other, failed, rfl⟩
        · exact .inl ⟨entry, read, absent, rfl⟩
        · exact .inr (.inl ⟨entry, read, present, bit, odd, rfl⟩)
        · exact .inr (.inr failed)

theorem amd64_walk_sound :
    WalkSound amd64Translator 48 4 ∧ WalkSound amd64La57Translator 57 5 :=
  ⟨walkSound _ 48 [39, 30, 21, 12] (by simp [Graduated]) (by decide)
      (by decide) (by decide) (by decide) (by decide),
    walkSound _ 57 [48, 39, 30, 21, 12] (by simp [Graduated]) (by decide)
      (by decide) (by decide) (by decide) (by decide)⟩

/-! The other direction. The page that the tables describe is found, unless its
entry is of the last level and uses the attribute bit that marks a large page
elsewhere. -/

/-- A present entry that maps a page. The last level maps whatever its bit 7
says, and only the two levels above it have large pages. -/
def PageAt (memory : MemoryAccess) (root : TranslationRoot) (va : UInt64)
    (top level : Nat) (entry : UInt64) : Prop :=
  ∃ table, Reaches memory root va top level table ∧
    EntryAt memory (slot va level table) entry ∧ BitSet 0 entry ∧
    (level = 1 ∨ BitSet 7 entry ∧ (level = 2 ∨ level = 3))

def pageOf (va : UInt64) (level : Nat) (entry : UInt64) : Translation :=
  ⟨⟨UInt64.ofNat (frameBits (12 + 9 * (level - 1)) entry +
      va.toNat % 2 ^ (12 + 9 * (level - 1)))⟩,
    UInt64.ofNat (2 ^ (12 + 9 * (level - 1)))⟩

/-- Where the walk stands, only the levels below are left to search. -/
theorem resolve_of_reaches {memory : MemoryAccess} {root : TranslationRoot}
    {va : UInt64} {exhausted : Fault} {shifts : List UInt8} {start : UInt64}
    (graduated : Graduated shifts) (short : shifts.length ≤ 5)
    (startEq : start.toNat = frameBits 12 root.raw) {level table : Nat}
    (reached : Reaches memory root va shifts.length level table) :
    ∃ lower word, lower.length = level ∧ Graduated lower ∧
      word.toNat = table ∧
      RadixWalk.resolve (fetchEntry memory) 512 exhausted va.toNat
          (levelsOf shifts) start =
        RadixWalk.resolve (fetchEntry memory) 512 exhausted va.toNat
          (levelsOf lower) word := by
  induction reached with
  | root => exact ⟨shifts, start, rfl, graduated, startEq, rfl⟩
  | @next level table entry above read present maps positive induction =>
      obtain ⟨lower, word, lengths, lowerGraduated, rfl, same⟩ := induction
      have bound := above.le_top
      cases lower with
      | nil => simp at lengths
      | cons shift rest =>
          rw [List.length_cons, Nat.add_right_cancel_iff] at lengths
          subst lengths
          have fetched := read
          rw [← slot_eq lowerGraduated, ← fetchEntry_eq_ok] at fetched
          rcases decideEntry_cases (show 0 < rest.length + 1 by omega)
              (show rest.length + 1 ≤ 5 by omega) entry with
            ⟨absent, _⟩ | ⟨_, page, _⟩ | ⟨_, leafBit, _⟩ |
            ⟨_, _, _, next, decision, nextEq⟩
          · exact absurd present absent
          · exact absurd page maps
          · exact absurd (leafBit.mpr (by omega)) maps
          · refine ⟨rest, next, rfl, lowerGraduated.2, nextEq, ?_⟩
            rw [same]
            simp only [levelsOf, RadixWalk.resolve, fetched, ok_bind, decision]

/-- A page is found where its entry is one that the last level accepts. -/
theorem resolve_page {memory : MemoryAccess} {root : TranslationRoot}
    {va : UInt64} {exhausted : Fault} {shifts : List UInt8} {start : UInt64}
    (graduated : Graduated shifts) (nonempty : 0 < shifts.length)
    (short : shifts.length ≤ 5)
    (startEq : start.toNat = frameBits 12 root.raw) {level : Nat}
    {entry : UInt64} (page : PageAt memory root va shifts.length level entry) :
    RadixWalk.resolve (fetchEntry memory) 512 exhausted va.toNat
        (levelsOf shifts) start =
      if level = 1 ∧ BitSet 7 entry then
        .error (.other (.invalidPageTableEntry entry 1))
      else
        .ok ⟨UInt64.ofNat (frameBits (levelShift level) entry),
          levelShift level⟩ := by
  obtain ⟨table, reached, read, present, maps⟩ := page
  have positive := reached.positive nonempty
  have bound := reached.le_top
  obtain ⟨lower, word, lengths, lowerGraduated, rfl, same⟩ :=
    resolve_of_reaches graduated short startEq reached
  rw [same]
  cases lower with
  | nil => exact absurd lengths (by simp; omega)
  | cons shift rest =>
      rw [List.length_cons] at lengths
      subst lengths
      rw [← slot_eq lowerGraduated, ← fetchEntry_eq_ok] at read
      rcases decideEntry_cases positive
          (show rest.length + 1 ≤ 5 by omega) entry with
        ⟨absent, _⟩ | ⟨_, hasBit, odd, decision⟩ |
        ⟨_, leafBit, _, frame, decision, frameEq⟩ | ⟨_, clear, deep, _⟩
      · exact absurd present absent
      · have last : rest.length + 1 = 1 := by omega
        rw [if_pos ⟨last, hasBit⟩]
        simp only [levelsOf, RadixWalk.resolve, read, ok_bind, decision]
        rw [last]
        rfl
      · have accepted : ¬ (rest.length + 1 = 1 ∧ BitSet 7 entry) := by
          intro given
          have deep := leafBit.mp given.2
          omega
        rw [if_neg accepted]
        simp only [levelsOf, RadixWalk.resolve, read, ok_bind, decision]
        rw [← frameEq, UInt64.ofNat_toNat, lowerGraduated.1]
        rfl
      · cases maps with
        | inl last => omega
        | inr large => exact absurd large.1 clear

def Complete (translator : AddressTranslator) (memory : MemoryAccess)
    (root : TranslationRoot) (va : Gva) (top : Nat) : Prop :=
  ∀ level entry, PageAt memory root va.raw top level entry →
    translator.translate memory root va = .ok (pageOf va.raw level entry)

/-- The page is found unless a last-level entry has bit 7 set. -/
theorem complete_iff (tag : UInt64) (bits : UInt8) (shifts : List UInt8)
    (graduated : Graduated shifts) (nonempty : 0 < shifts.length)
    (short : shifts.length ≤ 5) (page : 13 ≤ bits.toNat)
    (below : bits.toNat < 64)
    (covered : 12 + 9 * shifts.length ≤ bits.toNat + 8)
    (memory : MemoryAccess) (root : TranslationRoot) {va : Gva}
    (canonical : SignExtended va.raw bits.toNat) :
    Complete ⟨tag, fun memory root address =>
        translateLevels memory root address bits shifts⟩ memory root va
        shifts.length ↔
      ∀ entry, PageAt memory root va.raw shifts.length 1 entry →
        ¬ BitSet 7 entry := by
  have rootEq : (root.raw &&& addressMask).toNat = frameBits 12 root.raw :=
    frameBits_eq (by decide) (by decide)
  have walked (level : Nat) (entry : UInt64)
      (found : PageAt memory root va.raw shifts.length level entry) :
      translateLevels memory root va bits shifts = conclude va.raw
        (if level = 1 ∧ BitSet 7 entry then
          .error (.other (.invalidPageTableEntry entry 1))
        else
          .ok ⟨UInt64.ofNat (frameBits (levelShift level) entry),
            levelShift level⟩) := by
    rw [← resolve_page graduated nonempty short rootEq found]
    exact (walkForm tag bits shifts graduated short page below
      covered).accepted memory root va canonical
  constructor
  · intro complete entry found hasBit
    have answer := complete 1 entry found
    simp only [walked 1 entry found, hasBit, and_self, if_true] at answer
    contradiction
  · intro noAttribute level entry found
    have accepted : ¬ (level = 1 ∧ BitSet 7 entry) := by
      intro given
      obtain ⟨rfl, hasBit⟩ := given
      exact noAttribute entry found hasBit
    have frameBound : frameBits (levelShift level) entry < 2 ^ 64 := by
      have masked : entry.toNat % 2 ^ 52 < 2 ^ 52 :=
        Nat.mod_lt _ (by decide)
      have smaller := Nat.div_mul_le_self (entry.toNat % 2 ^ 52)
        (2 ^ levelShift level)
      unfold frameBits
      omega
    simp only [walked level entry found, accepted, if_false, conclude, place,
      UInt64.toNat_ofNat_of_lt' frameBound]
    rfl

theorem amd64_walk_complete_iff (memory : MemoryAccess)
    (root : TranslationRoot) (va : Gva) :
    (SignExtended va.raw 48 →
      (Complete amd64Translator memory root va 4 ↔
        ∀ entry, PageAt memory root va.raw 4 1 entry → ¬ BitSet 7 entry)) ∧
    (SignExtended va.raw 57 →
      (Complete amd64La57Translator memory root va 5 ↔
        ∀ entry, PageAt memory root va.raw 5 1 entry →
          ¬ BitSet 7 entry)) := by
  constructor
  · intro canonical
    exact complete_iff _ 48 [39, 30, 21, 12] (by simp [Graduated])
      (by decide) (by decide) (by decide) (by decide) (by decide) memory root
      canonical
  · intro canonical
    exact complete_iff _ 57 [48, 39, 30, 21, 12] (by simp [Graduated])
      (by decide) (by decide) (by decide) (by decide) (by decide) memory root
      canonical

/-- One table page that is its own parent at every level. Its first entry is a
plain table entry, and its second maps a page with the attribute bit set. -/
def attributeMemory : MemoryAccess :=
  ⟨FlatMemory.readInto ⟨toLe 8 0x0001 ++ toLe 8 0x5081⟩⟩

theorem attributeMemory_table : EntryAt attributeMemory ⟨0⟩ 0x0001 :=
  ⟨⟨toLe 8 0x0001, rfl⟩, by rfl, by decide⟩

theorem attributeMemory_page : EntryAt attributeMemory ⟨8⟩ 0x5081 :=
  ⟨⟨toLe 8 0x5081, rfl⟩, by rfl, by decide⟩

theorem attributeMemory_pageAt :
    PageAt attributeMemory ⟨0⟩ 0x1000 4 1 0x5081 := by
  have present : BitSet 0 0x0001 := by decide
  have table : ¬ BitSet 7 0x0001 := by decide
  have third : Reaches attributeMemory ⟨0⟩ 0x1000 4 3 0 :=
    .next .root attributeMemory_table present table (by decide)
  have second : Reaches attributeMemory ⟨0⟩ 0x1000 4 2 0 :=
    .next third attributeMemory_table present table (by decide)
  have first : Reaches attributeMemory ⟨0⟩ 0x1000 4 1 0 :=
    .next second attributeMemory_table present table (by decide)
  exact ⟨0, first, attributeMemory_page, by decide, .inl rfl⟩

/-- The mapped page is turned down as an invalid entry. -/
theorem amd64_attribute_page_rejected :
    PageAt attributeMemory ⟨0⟩ 0x1000 4 1 0x5081 ∧
      amd64Translator.translate attributeMemory ⟨0⟩ ⟨0x1000⟩ =
        .error (.invalidPageTableEntry 0x5081 1) ∧
      ¬ (∀ memory root (va : Gva), SignExtended va.raw 48 →
        Complete amd64Translator memory root va 4) := by
  have rejected : amd64Translator.translate attributeMemory ⟨0⟩ ⟨0x1000⟩ =
      .error (.invalidPageTableEntry 0x5081 1) := by
    rfl
  refine ⟨attributeMemory_pageAt, rejected, ?_⟩
  intro complete
  have answer := complete attributeMemory ⟨0⟩ ⟨0x1000⟩ (.inl (by decide)) 1
    0x5081 attributeMemory_pageAt
  rw [rejected] at answer
  contradiction

theorem amd64_walk_complete_iff_attribute :
    ¬ Complete amd64Translator attributeMemory ⟨0⟩ ⟨0x1000⟩ 4 := by
  intro complete
  have clear := ((amd64_walk_complete_iff attributeMemory ⟨0⟩ ⟨0x1000⟩).1
    (.inl (by decide))).mp complete 0x5081 attributeMemory_pageAt
  exact clear (by decide)

end LibVmi.Arch.Amd64
