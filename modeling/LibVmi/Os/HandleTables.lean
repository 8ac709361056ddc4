import LibVmi.Os.WindowsHandles

namespace LibVmi.Os

open Data Arch LibVmi.Core

namespace WindowsHandleTableOffsets

/-- The masked and shifted word of a slot. -/
def pointerOf (offsets : WindowsHandleTableOffsets) (encoded : UInt64) :
    UInt64 :=
  (encoded &&& offsets.objectPointerMask) <<<
    UInt64.ofNat offsets.objectPointerShift.toNat

theorem entriesPerPage_toNat (offsets : WindowsHandleTableOffsets) :
    (4096 / offsets.entrySize).toNat = offsets.entriesPerPage :=
  UInt64.toNat_div _ _

variable {offsets : WindowsHandleTableOffsets} (valid : ¬ offsets.Invalid)
include valid

theorem entrySize_pos : 0 < offsets.entrySize.toNat := by
  rw [Invalid, not_or] at valid
  exact Nat.pos_of_ne_zero fun zero => valid.1 (UInt64.toNat_inj.mp zero)

theorem entrySize_dvd : offsets.entrySize.toNat ∣ 4096 := by
  have positive := entrySize_pos valid
  rw [Invalid] at valid
  simp only [not_or] at valid
  obtain ⟨nonzero, _, exactly, _⟩ := valid
  rw [checkedRem, if_neg nonzero, not_not, Option.some.injEq,
    ← UInt64.toNat_inj, UInt64.toNat_mod] at exactly
  exact Nat.dvd_of_mod_eq_zero exactly

theorem entriesPerPage_mul :
    offsets.entriesPerPage * offsets.entrySize.toNat = 4096 :=
  Nat.div_mul_cancel (entrySize_dvd valid)

theorem entriesPerPage_pos : 0 < offsets.entriesPerPage := by
  have whole := entriesPerPage_mul valid
  apply Nat.pos_of_ne_zero
  intro zero
  rw [zero, Nat.zero_mul] at whole
  cases whole

theorem shift_lt : offsets.objectPointerShift.toNat < 64 := by
  rw [Invalid] at valid
  simp only [not_or, UInt8.not_le] at valid
  exact valid.2.2.2.1

theorem signBit_lt : offsets.objectPointerSignBit.toNat < 64 := by
  rw [Invalid] at valid
  simp only [not_or, UInt8.not_le] at valid
  exact valid.2.2.2.2

end WindowsHandleTableOffsets

namespace WindowsIntrospector

variable {σ : Type} [Session σ] {self : WindowsIntrospector σ}

/-! What the parts of the enumeration answer where they succeed. -/

theorem readTablePointer_aligned {table index pointer : UInt64}
    (read : self.readTablePointer table index = .ok pointer) :
    pointer.toNat % 4096 = 0 := by
  unfold readTablePointer at read
  simp only [bind_eq_ok, rejectIf_eq_ok, okOr_eq_ok, pure_eq_ok,
    Except.ok.injEq] at read
  obtain ⟨_, _, _, _, word, _, _, accepted, rfl⟩ := read
  have zero := not_not.mp (not_or.mp accepted).2
  have masked := and_low_mask_toNat (word &&& ~~~0xf) 0xfff 12 rfl
  rw [zero] at masked
  exact masked.symm

/-- A slot lies where its leaf and its place in the leaf put it. -/
theorem handleEntryAddress_eq_ok {offsets : WindowsHandleTableOffsets}
    (valid : ¬ offsets.Invalid) {tableBase level index address : UInt64} :
    self.handleEntryAddress tableBase level index offsets.entrySize =
        .ok address ↔
      ∃ leaf, self.handleLeaf tableBase level
          (index / (4096 / offsets.entrySize)) = .ok leaf ∧
        address.toNat = leaf.toNat +
          index.toNat % offsets.entriesPerPage * offsets.entrySize.toNat := by
  have entries := offsets.entriesPerPage_toNat
  have several := offsets.entriesPerPage_pos valid
  have whole := offsets.entriesPerPage_mul valid
  have divisor : ¬ offsets.entrySize = 0 := by
    intro zero
    have positive := offsets.entrySize_pos valid
    rw [zero] at positive
    exact absurd positive (by decide)
  have nonzero : ¬ 4096 / offsets.entrySize = 0 := by
    intro zero
    rw [zero] at entries
    rw [← entries] at several
    exact absurd several (by decide)
  have inside : index.toNat % offsets.entriesPerPage < offsets.entriesPerPage :=
    Nat.mod_lt _ several
  have small : index.toNat % offsets.entriesPerPage *
      offsets.entrySize.toNat < 4096 := by
    rw [← whole]
    exact Nat.mul_lt_mul_of_pos_right inside (offsets.entrySize_pos valid)
  have product : checkedMul (index % (4096 / offsets.entrySize))
      offsets.entrySize = some (index % (4096 / offsets.entrySize) *
        offsets.entrySize) := by
    rw [checkedMul_eq_some]
    simp only [unsigned_toNat_uint64, UInt64.toNat_mul, UInt64.toNat_mod,
      entries]
    omega
  unfold handleEntryAddress
  rw [checkedDiv, if_neg divisor,
    Option.filter_some_pos (by simpa using nonzero), okOr_some, ok_bind,
    checkedDiv, if_neg nonzero, okOr_some, ok_bind, checkedRem, if_neg nonzero,
    okOr_some, ok_bind, product, bind_eq_ok]
  simp only [okOr_some, ok_bind, okOr_eq_ok, checkedAdd_eq_some,
    unsigned_toNat_uint64, UInt64.toNat_mul, UInt64.toNat_mod, entries,
    Nat.mod_eq_of_lt (Nat.lt_trans small (by decide : 4096 < 2 ^ 64))]

theorem checkedShl_pointer {offsets : WindowsHandleTableOffsets}
    (valid : ¬ offsets.Invalid) (encoded : UInt64) :
    checkedShl (encoded &&& offsets.objectPointerMask)
      offsets.objectPointerShift.toNat = some (offsets.pointerOf encoded) :=
  if_pos (offsets.shift_lt valid)

/-- One slot: a null pointer, or a handle with the extended pointer. -/
theorem handleAt_cases {offsets : WindowsHandleTableOffsets}
    (valid : ¬ offsets.Invalid) {table : HandleTable} {index : Nat}
    {slot : Option WindowsHandle}
    (read : self.handleAt offsets table index = .ok slot) :
    ∃ entry encoded, self.handleWord offsets table (UInt64.ofNat index) =
        .ok (entry, encoded) ∧
      (offsets.pointerOf encoded = 0 ∧ slot = none ∨
        offsets.pointerOf encoded ≠ 0 ∧ ∃ handle, slot = some handle ∧
          signExtend (offsets.pointerOf encoded)
            offsets.objectPointerSignBit = .ok handle.object.raw) := by
  unfold handleAt at read
  obtain ⟨number, converted, read⟩ := bind_eq_ok.mp read
  have numberEq : number = UInt64.ofNat index := by
    rw [okOr_eq_ok, tryFrom_eq_some] at converted
    rw [← converted, unsigned_toNat_uint64, UInt64.ofNat_toNat]
  subst numberEq
  obtain ⟨⟨entry, encoded⟩, word, read⟩ := bind_eq_ok.mp read
  refine ⟨entry, encoded, word, ?_⟩
  dsimp only at read
  rw [checkedShl_pointer valid, okOr_some, ok_bind] at read
  split at read
  · rename_i null
    cases read
    exact .inl ⟨null, rfl⟩
  · rename_i pointer
    obtain ⟨object, extended, read⟩ := bind_eq_ok.mp read
    simp only [bind_eq_ok, pure_eq_ok, Except.ok.injEq] at read
    obtain ⟨_, _, _, _, _, _, rfl⟩ := read
    exact .inr ⟨pointer, _, rfl, extended⟩

theorem handleAt_of_handlesFrom {offsets : WindowsHandleTableOffsets}
    {table : HandleTable} {remaining first : Nat} {found : List WindowsHandle}
    (read : self.handlesFrom offsets table remaining first = .ok found)
    {index : Nat} (least : first ≤ index) (most : index < first + remaining) :
    ∃ slot, self.handleAt offsets table index = .ok slot := by
  induction remaining generalizing first found with
  | zero => omega
  | succ remaining induction =>
      simp only [handlesFrom, bind_eq_ok] at read
      obtain ⟨slot, here, rest, later, _⟩ := read
      obtain rfl | beyond := Nat.eq_or_lt_of_le least
      · exact ⟨slot, here⟩
      · exact induction later beyond (by omega)

theorem mem_handlesFrom {offsets : WindowsHandleTableOffsets}
    {table : HandleTable} {remaining first : Nat} {found : List WindowsHandle}
    (read : self.handlesFrom offsets table remaining first = .ok found)
    (handle : WindowsHandle) :
    handle ∈ found ↔ ∃ index, first ≤ index ∧ index < first + remaining ∧
      self.handleAt offsets table index = .ok (some handle) := by
  induction remaining generalizing first found with
  | zero =>
      cases read
      simp only [List.not_mem_nil, false_iff]
      intro given
      obtain ⟨index, least, most, _⟩ := given
      omega
  | succ remaining induction =>
      simp only [handlesFrom, bind_eq_ok, pure_eq_ok, Except.ok.injEq] at read
      obtain ⟨slot, here, rest, later, rfl⟩ := read
      rw [List.mem_append, Option.mem_toList, induction later]
      constructor
      · intro given
        obtain same | ⟨index, least, most, found⟩ := given
        · exact ⟨first, Nat.le_refl _, by omega, by rw [here, same]⟩
        · exact ⟨index, by omega, by omega, found⟩
      · intro given
        obtain ⟨index, least, most, found⟩ := given
        obtain rfl | beyond := Nat.eq_or_lt_of_le least
        · rw [here] at found
          cases found
          exact .inl rfl
        · exact .inr ⟨index, beyond, by omega, found⟩

theorem handles_cases {eprocess : Gva} {offsets : WindowsHandleTableOffsets}
    {limit : Nat} {found : List WindowsHandle}
    (read : self.handles eprocess offsets limit = .ok found) :
    ¬ offsets.Invalid ∧
      (self.handleTable eprocess offsets limit = .ok none ∧ found = [] ∨
        ∃ table, self.handleTable eprocess offsets limit = .ok (some table) ∧
          self.handlesFrom offsets table table.count 0 = .ok found) := by
  obtain ⟨accepted, read⟩ := rejectIf_bind_eq_ok.mp read
  refine ⟨fun invalid => accepted (.inr (.inr invalid)), ?_⟩
  obtain ⟨table, header, read⟩ := bind_eq_ok.mp read
  cases table with
  | none =>
      cases read
      exact .inl ⟨header, rfl⟩
  | some table => exact .inr ⟨table, header, read⟩

/-! Objects that the extension turns null. -/

/-- The pointer of a slot passes the null test and has no low bits. -/
def Vanishes (offsets : WindowsHandleTableOffsets) (encoded : UInt64) : Prop :=
  offsets.pointerOf encoded ≠ 0 ∧ (offsets.pointerOf encoded).toNat %
    2 ^ (offsets.objectPointerSignBit.toNat + 1) = 0

/-- The handles of a slot that is read. -/
theorem handleAt_object {offsets : WindowsHandleTableOffsets}
    (valid : ¬ offsets.Invalid) {table : HandleTable} {index : Nat}
    {slot : Option WindowsHandle}
    (read : self.handleAt offsets table index = .ok slot)
    {entry encoded : UInt64}
    (word : self.handleWord offsets table (UInt64.ofNat index) =
      .ok (entry, encoded)) :
    (∀ handle ∈ slot, Canonical handle.object.raw
      offsets.objectPointerSignBit) ∧
    ((∃ handle ∈ slot, handle.object.raw = 0) ↔ Vanishes offsets encoded) := by
  have within := offsets.signBit_lt valid
  obtain ⟨_, _, found, ⟨null, rfl⟩ | ⟨pointer, handle, rfl, extended⟩⟩ :=
    handleAt_cases valid read
  · rw [word] at found
    cases found
    refine ⟨by simp, iff_of_false (by simp) ?_⟩
    exact fun vanishes => vanishes.1 null
  · rw [word] at found
    cases found
    have zero := signExtend_eq_zero within extended
    constructor
    · intro other same
      cases same
      exact signExtend_canonical within extended
    · constructor
      · intro given
        obtain ⟨other, same, null⟩ := given
        cases same
        exact ⟨pointer, zero.mp null⟩
      · intro vanishes
        exact ⟨handle, rfl, zero.mpr vanishes.2⟩

/-- Reported objects are canonical and not null exactly where no slot holds a
pointer that is not null and loses all its bits to the truncation. -/
theorem handle_objects_iff {eprocess : Gva}
    {offsets : WindowsHandleTableOffsets} {limit : Nat}
    {found : List WindowsHandle}
    (accepted : self.handles eprocess offsets limit = .ok found) :
    (∀ handle ∈ found, handle.object.raw ≠ 0 ∧
      Canonical handle.object.raw offsets.objectPointerSignBit) ↔
    ∀ table, self.handleTable eprocess offsets limit = .ok (some table) →
      ∀ index < table.count, ∀ entry encoded,
        self.handleWord offsets table (UInt64.ofNat index) =
          .ok (entry, encoded) → ¬ Vanishes offsets encoded := by
  obtain ⟨valid, ⟨header, rfl⟩ | ⟨table, header, listed⟩⟩ :=
    handles_cases accepted
  · refine iff_of_true (by simp) ?_
    intro table other
    rw [header] at other
    cases other
  · constructor
    · intro sound other same index below entry encoded word vanishes
      rw [header] at same
      cases same
      obtain ⟨slot, read⟩ :=
        handleAt_of_handlesFrom listed (Nat.zero_le index) (by omega)
      obtain ⟨handle, held, null⟩ :=
        (handleAt_object valid read word).2.mpr vanishes
      cases held
      have member := (mem_handlesFrom listed handle).mpr
        ⟨index, Nat.zero_le index, by omega, read⟩
      exact (sound handle member).1 null
    · intro kept handle member
      obtain ⟨index, _, below, read⟩ := (mem_handlesFrom listed handle).mp member
      obtain ⟨entry, encoded, word, _⟩ := handleAt_cases valid read
      obtain ⟨canonical, null⟩ := handleAt_object valid read word
      refine ⟨?_, canonical handle rfl⟩
      intro zero
      exact kept table header index (by omega) entry encoded word
        (null.mp ⟨handle, rfl, zero⟩)

/-! Every slot of a table its own entry. -/

variable (self)

/-- The tables and the places in them that the walk to a leaf reads. -/
def pointerReads (tableBase level leafIndex : UInt64) :
    List (UInt64 × UInt64) :=
  if level = 1 then [(tableBase, leafIndex)]
  else if level = 2 then
    (tableBase, leafIndex / pointersPerPage) ::
      (match self.readTablePointer tableBase (leafIndex / pointersPerPage) with
        | .ok directory => [(directory, leafIndex % pointersPerPage)]
        | .error _ => [])
  else []

variable (offsets : WindowsHandleTableOffsets) (table : HandleTable)

def leafIndex (index : Nat) : UInt64 :=
  UInt64.ofNat index / (4096 / offsets.entrySize)

def capacity : Nat := offsets.entriesPerPage * 512 ^ table.level.toNat

/-- No pointer of eight bytes is read past the page of its table. -/
def PointersInside : Prop :=
  ∀ index < table.count, ∀ read ∈ self.pointerReads table.entries table.level
    (leafIndex offsets index), 8 * read.2.toNat + 8 ≤ 4096

def LeavesDistinct : Prop :=
  ∀ left < table.count, ∀ right < table.count, ∀ page,
    self.handleLeaf table.entries table.level (leafIndex offsets left) =
      .ok page →
    self.handleLeaf table.entries table.level (leafIndex offsets right) =
      .ok page →
    leafIndex offsets left = leafIndex offsets right

def entryOf (index : Nat) : Result UInt64 :=
  self.handleEntryAddress table.entries table.level (UInt64.ofNat index)
    offsets.entrySize

/-- Where the pointer pages lead to distinct leaves, no entry is read for two
indices. -/
def EntriesApart : Prop :=
  (table.level ≠ 0 → self.LeavesDistinct offsets table) →
    ∀ left < table.count, ∀ right < table.count, ∀ entry,
      self.entryOf offsets table left = .ok entry →
      self.entryOf offsets table right = .ok entry → left = right

variable {self offsets table}

/-- A leaf that is found was found by the reads listed for it. -/
theorem handleLeaf_reads {tableBase level leafIndex leaf : UInt64}
    (found : self.handleLeaf tableBase level leafIndex = .ok leaf) :
    ∀ read ∈ self.pointerReads tableBase level leafIndex,
      ∃ pointer, self.readTablePointer read.1 read.2 = .ok pointer := by
  unfold handleLeaf at found
  unfold pointerReads
  split at found
  · rename_i zero
    subst zero
    intro read member
    cases member
  · split at found
    · rename_i one
      rw [if_pos one]
      intro read member
      rw [List.mem_singleton.mp member]
      exact ⟨leaf, found⟩
    · rename_i one
      rw [if_neg one]
      split at found
      · rename_i two
        obtain ⟨directory, first, second⟩ := bind_eq_ok.mp found
        rw [if_pos two, first]
        intro read member
        obtain rfl | last := List.mem_cons.mp member
        · exact ⟨directory, first⟩
        · rw [List.mem_singleton.mp last]
          exact ⟨leaf, second⟩
      · cases found

theorem handleTable_shape {eprocess : Gva} {limit : Nat}
    (read : self.handleTable eprocess offsets limit = .ok (some table)) :
    table.level.toNat ≤ 2 ∧ table.count < 2 ^ 62 := by
  unfold handleTable at read
  obtain ⟨_, _, read⟩ := bind_eq_ok.mp read
  obtain ⟨_, _, read⟩ := bind_eq_ok.mp read
  split at read
  · cases read
  · simp only [bind_eq_ok, rejectIf_eq_ok, pure_eq_ok, Except.ok.injEq,
      Option.some.injEq] at read
    obtain ⟨_, _, code, _, _, level, _, _, _, _, next, _, _, _, _, _, _, _,
      rfl⟩ := read
    constructor
    · exact UInt64.le_iff_toNat_le.mp (UInt64.not_lt.mp level)
    · have bound := next.toNat_lt
      rw [UInt64.toNat_div]
      change next.toNat / 4 < 2 ^ 62
      omega

theorem leafIndex_toNat {index : Nat} (bound : index < 2 ^ 64) :
    (leafIndex offsets index).toNat = index / offsets.entriesPerPage := by
  rw [leafIndex, UInt64.toNat_div, offsets.entriesPerPage_toNat,
    UInt64.toNat_ofNat_of_lt' bound]

theorem handleLeaf_aligned {tableBase level leafIndex leaf : UInt64}
    (walked : level ≠ 0)
    (found : self.handleLeaf tableBase level leafIndex = .ok leaf) :
    leaf.toNat % 4096 = 0 := by
  rw [handleLeaf, if_neg walked] at found
  split at found
  · exact readTablePointer_aligned found
  · split at found
    · obtain ⟨_, _, read⟩ := bind_eq_ok.mp found
      exact readTablePointer_aligned read
    · cases found

theorem pointersInside_of_capacity (small : table.count < 2 ^ 62)
    (within : table.count ≤ capacity offsets table) :
    self.PointersInside offsets table := by
  intro index below read member
  have leaf := @leafIndex_toNat offsets index (by omega)
  have inside := Nat.lt_of_lt_of_le below within
  unfold pointerReads at member
  split at member
  · rename_i one
    rw [capacity, one] at inside
    rw [List.mem_singleton.mp member]
    dsimp only
    rw [leaf]
    have slot := Nat.div_lt_of_lt_mul inside
    change index / offsets.entriesPerPage < 512 at slot
    omega
  · split at member
    · rename_i two
      rw [capacity, two] at inside
      have slot := Nat.div_lt_of_lt_mul inside
      change index / offsets.entriesPerPage < 512 * 512 at slot
      obtain rfl | last := List.mem_cons.mp member
      · have directory : (leafIndex offsets index / pointersPerPage).toNat =
            index / offsets.entriesPerPage / 512 := by
          rw [UInt64.toNat_div, leaf]
          rfl
        dsimp only
        rw [directory]
        omega
      · have rest : (leafIndex offsets index % pointersPerPage).toNat =
            index / offsets.entriesPerPage % 512 := by
          rw [UInt64.toNat_mod, leaf]
          rfl
        split at last
        · rw [List.mem_singleton.mp last]
          dsimp only
          rw [rest]
          omega
        · cases last
    · cases member

/-- Where an entry lies, in numbers. -/
theorem entryOf_eq_ok (valid : ¬ offsets.Invalid) {index : Nat}
    (bound : index < 2 ^ 64) {entry : UInt64} :
    self.entryOf offsets table index = .ok entry ↔
      ∃ leaf, self.handleLeaf table.entries table.level
          (leafIndex offsets index) = .ok leaf ∧
        entry.toNat = leaf.toNat +
          index % offsets.entriesPerPage * offsets.entrySize.toNat := by
  rw [entryOf, handleEntryAddress_eq_ok valid,
    UInt64.toNat_ofNat_of_lt' bound]
  rfl

theorem entriesApart_of_capacity (valid : ¬ offsets.Invalid)
    (small : table.count < 2 ^ 62)
    (within : table.count ≤ capacity offsets table) :
    self.EntriesApart offsets table := by
  intro distinct left below right other entry leftRead rightRead
  have size := offsets.entrySize_pos valid
  have whole := offsets.entriesPerPage_mul valid
  have several := offsets.entriesPerPage_pos valid
  obtain ⟨leftLeaf, leftFound, leftEq⟩ :=
    (entryOf_eq_ok valid (by omega)).mp leftRead
  obtain ⟨rightLeaf, rightFound, rightEq⟩ :=
    (entryOf_eq_ok valid (by omega)).mp rightRead
  have offsetLt : ∀ index : Nat, index % offsets.entriesPerPage *
      offsets.entrySize.toNat < 4096 := by
    intro index
    rw [← whole]
    exact Nat.mul_lt_mul_of_pos_right (Nat.mod_lt _ several) size
  have leftLt := offsetLt left
  have rightLt := offsetLt right
  by_cases ground : table.level = 0
  · rw [capacity, ground] at within
    change table.count ≤ offsets.entriesPerPage * 1 at within
    rw [handleLeaf, if_pos ground] at leftFound rightFound
    cases leftFound
    cases rightFound
    rw [Nat.mod_eq_of_lt (by omega)] at leftEq rightEq
    apply Nat.eq_of_mul_eq_mul_right size
    omega
  · have leftAligned := handleLeaf_aligned ground leftFound
    have rightAligned := handleLeaf_aligned ground rightFound
    have leaves : leftLeaf = rightLeaf := by
      apply UInt64.toNat_inj.mp
      omega
    subst leaves
    have quotient := congrArg UInt64.toNat
      (distinct ground left below right other _ leftFound rightFound)
    rw [leafIndex_toNat (by omega), leafIndex_toNat (by omega)] at quotient
    have remainder : left % offsets.entriesPerPage =
        right % offsets.entriesPerPage := by
      apply Nat.eq_of_mul_eq_mul_right size
      omega
    calc
      left = offsets.entriesPerPage * (left / offsets.entriesPerPage) +
          left % offsets.entriesPerPage := (Nat.div_add_mod _ _).symm
      _ = offsets.entriesPerPage * (right / offsets.entriesPerPage) +
          right % offsets.entriesPerPage := by rw [quotient, remainder]
      _ = right := Nat.div_add_mod _ _

/-- The ground level has one leaf, and repeats its entries past the first
page. -/
theorem ground_repeats (valid : ¬ offsets.Invalid) (ground : table.level = 0)
    (small : table.count < 2 ^ 62)
    (read : ∀ index < table.count,
      ∃ entry, self.entryOf offsets table index = .ok entry)
    (beyond : offsets.entriesPerPage < table.count) :
    ¬ self.EntriesApart offsets table := by
  intro apart
  have several := offsets.entriesPerPage_pos valid
  have home : ∀ leaf,
      self.handleLeaf table.entries table.level leaf = .ok table.entries := by
    intro leaf
    rw [handleLeaf, if_pos ground]
  obtain ⟨entry, start⟩ := read 0 (by omega)
  have again : self.entryOf offsets table offsets.entriesPerPage =
      .ok entry := by
    obtain ⟨leaf, found, entryEq⟩ :=
      (entryOf_eq_ok valid (by omega)).mp start
    rw [home] at found
    cases found
    refine (entryOf_eq_ok valid (by omega)).mpr ⟨_, home _, ?_⟩
    rw [entryEq, Nat.mod_self, Nat.zero_mod]
  have same := apart (fun walked => absurd ground walked) 0 (by omega) _ beyond
    entry start again
  omega

variable (self) in
/-- The first pointer for a leaf that the levels below the root have no room
for lies past its page. -/
theorem pointer_outside {tableBase level leafIndex : UInt64}
    (walked : level = 1 ∨ level = 2)
    (leaf : leafIndex.toNat = 512 ^ level.toNat) :
    ∃ slot, (tableBase, slot) ∈ self.pointerReads tableBase level leafIndex ∧
      512 ≤ slot.toNat := by
  obtain rfl | rfl := walked
  · refine ⟨leafIndex, ?_, Nat.le_of_eq leaf.symm⟩
    rw [pointerReads, if_pos rfl]
    exact List.mem_singleton_self _
  · refine ⟨leafIndex / pointersPerPage, ?_, ?_⟩
    · rw [pointerReads, if_neg (by decide), if_pos rfl]
      exact List.mem_cons_self
    · rw [UInt64.toNat_div, leaf]
      exact Nat.le_of_eq rfl

/-- Past its capacity the ground level wraps, and the others read a pointer
that lies past its page. -/
theorem capacity_of_apart (valid : ¬ offsets.Invalid)
    (shape : table.level.toNat ≤ 2) (small : table.count < 2 ^ 62)
    (read : ∀ index < table.count,
      ∃ entry, self.entryOf offsets table index = .ok entry)
    (inside : self.PointersInside offsets table)
    (apart : self.EntriesApart offsets table) :
    table.count ≤ capacity offsets table := by
  by_contra beyond
  have below := Nat.lt_of_not_le beyond
  obtain ground | walked : table.level = 0 ∨
      table.level = 1 ∨ table.level = 2 := by
    simp only [← UInt64.toNat_inj]
    change table.level.toNat = 0 ∨ table.level.toNat = 1 ∨
      table.level.toNat = 2
    omega
  · have capacityEq : capacity offsets table = offsets.entriesPerPage := by
      rw [capacity, ground]
      exact Nat.mul_one _
    rw [capacityEq] at below
    exact ground_repeats valid ground small read below apart
  · have leaf : (leafIndex offsets (capacity offsets table)).toNat =
        512 ^ table.level.toNat := by
      rw [leafIndex_toNat (by omega)]
      exact Nat.mul_div_cancel_left _ (offsets.entriesPerPage_pos valid)
    obtain ⟨slot, member, outside⟩ := pointer_outside self walked leaf
    have last := inside (capacity offsets table) below _ member
    dsimp only at last
    omega

/-- Every index names its own slot exactly where the count does not exceed
what the level has room for; and past that count a pointer is read outside its
page or an entry for two indices. -/
theorem handle_slots_iff {eprocess : Gva} {limit : Nat}
    {found : List WindowsHandle}
    (accepted : self.handles eprocess offsets limit = .ok found)
    (header : self.handleTable eprocess offsets limit = .ok (some table)) :
    (table.count ≤ capacity offsets table ∧
        self.PointersInside offsets table ∧ self.EntriesApart offsets table ↔
      table.count ≤ capacity offsets table) ∧
    (self.PointersInside offsets table ∧ self.EntriesApart offsets table ↔
      table.count ≤ capacity offsets table) := by
  obtain ⟨level, small⟩ := handleTable_shape header
  obtain ⟨valid, ⟨absent, _⟩ | ⟨other, same, listed⟩⟩ := handles_cases accepted
  · rw [header] at absent
    cases absent
  · rw [header] at same
    cases same
    have enough : table.count ≤ capacity offsets table →
        self.PointersInside offsets table ∧
          self.EntriesApart offsets table :=
      fun within => ⟨pointersInside_of_capacity small within,
        entriesApart_of_capacity valid small within⟩
    have read : ∀ index < table.count,
        ∃ entry, self.entryOf offsets table index = .ok entry := by
      intro index below
      obtain ⟨slot, found⟩ :=
        handleAt_of_handlesFrom listed (Nat.zero_le index) (by omega)
      obtain ⟨entry, encoded, word, _⟩ := handleAt_cases valid found
      obtain ⟨address, located, _⟩ := bind_eq_ok.mp word
      exact ⟨address, located⟩
    constructor
    · exact ⟨And.left, fun within => ⟨within, enough within⟩⟩
    · constructor
      · intro given
        exact capacity_of_apart valid level small read given.1 given.2
      · exact enough

end WindowsIntrospector

/-! A process at 8 with a table at 16, whose slots start at 32. -/

def windowsInspector (bytes : List UInt8) : WindowsIntrospector FlatMemory :=
  ⟨⟨⟨bytes⟩, ⟨4096, ∅, []⟩⟩, identity, ⟨0⟩, ⟨∅, ∅⟩, ⟨0, 0, 0, 1, 0⟩⟩

def handleGuest (count word : Nat) : List UInt8 :=
  List.replicate 8 0 ++ toLe 8 16 ++ toLe 8 32 ++ toLe 8 (4 * count) ++
    toLe 8 word ++ toLe 8 0x1f

def handleOffsets (entrySize : UInt64) (signBit : UInt8) :
    WindowsHandleTableOffsets :=
  ⟨0, 0, 8, entrySize, 0, 8, 0xffffffffffffffff, 0, signBit⟩

open WindowsIntrospector

/-- A slot of half a page. -/
def halfPageSlot (word grantedAccess : Nat) : List UInt8 :=
  toLe 8 word ++ toLe 8 grantedAccess ++ List.replicate 2032 0

/-- A table of one level of pointers to two leaves, with a null slot between two
handles. -/
def twoLeavesGuest : List UInt8 :=
  List.replicate 8 0 ++ toLe 8 16 ++ toLe 8 33 ++ toLe 8 12 ++ toLe 8 4096 ++
    toLe 8 8192 ++ List.replicate 4048 0 ++ halfPageSlot 0x1000 0x1f ++
    halfPageSlot 0 0 ++ halfPageSlot 0x80f000 3

def twoLeavesHandles : List WindowsHandle :=
  [⟨0, ⟨0x1000⟩, 0x1f⟩, ⟨8, ⟨0xffffffffff80f000⟩, 3⟩]

theorem twoLeaves_handles :
    (windowsInspector twoLeavesGuest).handles ⟨8⟩ (handleOffsets 2048 23) 16 =
      .ok twoLeavesHandles := by
  decide +kernel

theorem twoLeaves_table :
    (windowsInspector twoLeavesGuest).handleTable ⟨8⟩ (handleOffsets 2048 23)
      16 = .ok (some ⟨32, 1, 3⟩) := by
  decide +kernel

theorem handle_slots_two_leaves :
    let self := windowsInspector twoLeavesGuest
    let offsets := handleOffsets 2048 23
    let table : HandleTable := ⟨32, 1, 3⟩
    self.handles ⟨8⟩ offsets 16 = .ok twoLeavesHandles ∧
      self.handleTable ⟨8⟩ offsets 16 = .ok (some table) ∧
      self.PointersInside offsets table ∧ self.EntriesApart offsets table :=
  ⟨twoLeaves_handles, twoLeaves_table,
    (handle_slots_iff twoLeaves_handles twoLeaves_table).2.mpr (by decide)⟩

/-- A table of one level with two slots of a page each reports the first slot
under both handles. -/
theorem handle_slots_repeated :
    let self := windowsInspector (handleGuest 2 0x1000)
    let offsets := handleOffsets 4096 63
    let table : HandleTable := ⟨32, 0, 2⟩
    self.handles ⟨8⟩ offsets 16 =
        .ok [⟨0, ⟨0x1000⟩, 0x1f⟩, ⟨4, ⟨0x1000⟩, 0x1f⟩] ∧
      self.handleTable ⟨8⟩ offsets 16 = .ok (some table) ∧
      ¬ table.count ≤ capacity offsets table ∧
      ¬ self.EntriesApart offsets table := by
  intro self offsets table
  have first : self.entryOf offsets table 0 = .ok 32 := by decide +kernel
  have second : self.entryOf offsets table 1 = .ok 32 := by decide +kernel
  refine ⟨by decide +kernel, by decide +kernel, by decide, ?_⟩
  intro apart
  have same := apart (fun walked => absurd rfl walked) 0 (by decide) 1
    (by decide) 32 first second
  cases same

theorem handle_objects_two_leaves :
    let self := windowsInspector twoLeavesGuest
    let offsets := handleOffsets 2048 23
    (∀ handle ∈ twoLeavesHandles, handle.object.raw ≠ 0 ∧
      Canonical handle.object.raw offsets.objectPointerSignBit) ∧
    ∀ table, self.handleTable ⟨8⟩ offsets 16 = .ok (some table) →
      ∀ index < table.count, ∀ entry encoded,
        self.handleWord offsets table (UInt64.ofNat index) =
          .ok (entry, encoded) → ¬ Vanishes offsets encoded := by
  intro self offsets
  have sound : ∀ handle ∈ twoLeavesHandles, handle.object.raw ≠ 0 ∧
      Canonical handle.object.raw offsets.objectPointerSignBit := by
    unfold Canonical
    decide +kernel
  exact ⟨sound, (handle_objects_iff twoLeaves_handles).mp sound⟩

/-- With the sign at bit seven, the pointer 0x100 becomes null. -/
theorem handle_object_null :
    let self := windowsInspector (handleGuest 1 0x100)
    let offsets := handleOffsets 16 7
    self.handles ⟨8⟩ offsets 16 = .ok [⟨0, ⟨0⟩, 0x1f⟩] ∧
      ¬ ∀ handle ∈ [(⟨0, ⟨0⟩, 0x1f⟩ : WindowsHandle)],
        handle.object.raw ≠ 0 ∧
          Canonical handle.object.raw offsets.objectPointerSignBit := by
  intro self offsets
  refine ⟨by decide +kernel, ?_⟩
  intro sound
  exact (sound _ (List.mem_singleton_self _)).1 rfl

end LibVmi.Os
