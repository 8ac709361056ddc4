import LibVmi.Data.Words
import LibVmi.Os.Linux
import LibVmi.Os.Windows

namespace LibVmi.Os

open Data Arch LibVmi.Core Profile

structure WindowsHandleTableOffsets where
  eprocessObjectTable : UInt64
  tableCode : UInt64
  nextHandleNeedingPool : UInt64
  entrySize : UInt64
  entryObject : UInt64
  entryGrantedAccess : UInt64
  objectPointerMask : UInt64
  objectPointerShift : UInt8
  objectPointerSignBit : UInt8
  deriving DecidableEq, Repr

structure WindowsHandle where
  handle : UInt64
  object : Gva
  grantedAccess : UInt32
  deriving DecidableEq, Repr

/-- A table that is not null: its array, its level and its number of slots. -/
structure HandleTable where
  entries : UInt64
  level : UInt64
  count : Nat
  deriving DecidableEq, Repr

def checkedDiv (value divisor : UInt64) : Option UInt64 :=
  if divisor = 0 then none else some (value / divisor)

def checkedRem (value divisor : UInt64) : Option UInt64 :=
  if divisor = 0 then none else some (value % divisor)

def signExtend (value : UInt64) (signBit : UInt8) : Result UInt64 := do
  let width ← okOr (checkedAdd signBit 1)
    (.backend "Windows sign-extension width overflow")
  let lowMask ←
    if width = 64 then
      pure 0xffffffffffffffff
    else
      okOr ((checkedShl 1 width.toNat).bind (checkedSub · 1))
        (.backend "Windows sign-extension mask overflow")
  let signMask ← okOr (checkedShl 1 signBit.toNat)
    (.backend "Windows sign bit overflow")
  let truncated := value &&& lowMask
  if truncated &&& signMask = 0 then
    return truncated
  else
    return truncated ||| ~~~lowMask

namespace WindowsHandleTableOffsets

def Invalid (offsets : WindowsHandleTableOffsets) : Prop :=
  offsets.entrySize = 0 ∨ 4096 < offsets.entrySize ∨
    checkedRem 4096 offsets.entrySize ≠ some 0 ∨
    64 ≤ offsets.objectPointerShift ∨ 64 ≤ offsets.objectPointerSignBit

instance decidableInvalid (offsets : WindowsHandleTableOffsets) :
    Decidable offsets.Invalid := by
  unfold Invalid
  infer_instance

def entriesPerPage (offsets : WindowsHandleTableOffsets) : Nat :=
  4096 / offsets.entrySize.toNat

end WindowsHandleTableOffsets

namespace WindowsIntrospector

def pointersPerPage : UInt64 := 4096 / 8

variable {σ : Type} [Session σ] (self : WindowsIntrospector σ)

def readTablePointer (table index : UInt64) : Result UInt64 := do
  let offset ← okOr (checkedMul index 8)
    (.backend "Windows handle pointer offset overflow")
  let address ← okOr (checkedAdd table offset)
    (.backend "Windows handle pointer table overflow")
  let word ← self.readU64 address
  let pointer := word &&& ~~~0xf
  rejectIf (pointer = 0 ∨ pointer &&& 0xfff ≠ 0) (.backend
    s!"invalid Windows handle table page pointer {hex pointer.toNat}")
  return pointer

/-- The page of entries that a level leads to. -/
def handleLeaf (tableBase level leafIndex : UInt64) : Result UInt64 :=
  if level = 0 then .ok tableBase
  else if level = 1 then self.readTablePointer tableBase leafIndex
  else if level = 2 then do
    let directory ← self.readTablePointer tableBase
      (leafIndex / pointersPerPage)
    self.readTablePointer directory (leafIndex % pointersPerPage)
  else
    .error (.backend s!"invalid Windows handle table level {level}")

def handleEntryAddress (tableBase level index entrySize : UInt64) :
    Result UInt64 := do
  let entriesPerPage ← okOr
    ((checkedDiv 4096 entrySize).filter fun entries => entries ≠ 0)
    (.backend "invalid Windows handle entry size")
  let leafIndex ← okOr (checkedDiv index entriesPerPage)
    (.backend "invalid Windows handle page divisor")
  let entryIndex ← okOr (checkedRem index entriesPerPage)
    (.backend "invalid Windows handle page divisor")
  let leaf ← self.handleLeaf tableBase level leafIndex
  let offset ← okOr (checkedMul entryIndex entrySize)
    (.backend "Windows handle entry offset overflow")
  okOr (checkedAdd leaf offset) (.backend "Windows handle leaf overflow")

/-- The header of the table of a process, or nothing where it has none. -/
def handleTable (eprocess : Gva) (offsets : WindowsHandleTableOffsets)
    (handleLimit : Nat) : Result (Option HandleTable) := do
  let table ← self.readU64 (← add eprocess.raw offsets.eprocessObjectTable
    "process object table")
  if table = 0 then
    return none
  else do
    let tableCode ← self.readU64 (← add table offsets.tableCode
      "handle table code")
    let level := tableCode &&& 3
    rejectIf (2 < level)
      (.backend s!"invalid Windows handle table level {level}")
    let entries := tableCode &&& ~~~3
    rejectIf (entries = 0)
      (.backend "Windows handle table has null entry array")
    let nextHandle ← self.readU64 (← add table offsets.nextHandleNeedingPool
      "next handle")
    rejectIf (nextHandle &&& 3 ≠ 0)
      (.backend s!"unaligned Windows next handle {hex nextHandle.toNat}")
    let count := (nextHandle / 4).toNat
    rejectIf (Usize.limit ≤ count)
      (.backend "Windows handle count is too large")
    rejectIf (handleLimit < count)
      (.backend s!"Windows handle count {count} exceeds limit {handleLimit}")
    return some ⟨entries, level, count⟩

/-- The address of a slot and the word that stands for its object. -/
def handleWord (offsets : WindowsHandleTableOffsets) (table : HandleTable)
    (index : UInt64) : Result (UInt64 × UInt64) := do
  let entry ← self.handleEntryAddress table.entries table.level index
    offsets.entrySize
  let encoded ← self.readU64 (← add entry offsets.entryObject "handle object")
  return (entry, encoded)

def handleAt (offsets : WindowsHandleTableOffsets) (table : HandleTable)
    (index : Nat) : Result (Option WindowsHandle) := do
  let index ← okOr (tryFrom index)
    (.backend "Windows handle index is too large")
  let (entry, encoded) ← self.handleWord offsets table index
  let pointer ← okOr (checkedShl (encoded &&& offsets.objectPointerMask)
      offsets.objectPointerShift.toNat)
    (.backend "Windows object pointer shift overflow")
  if pointer = 0 then
    return none
  else do
    let object ← signExtend pointer offsets.objectPointerSignBit
    let grantedAccess ← self.readU32 (← add entry offsets.entryGrantedAccess
      "handle granted access")
    let handle ← okOr (checkedMul index 4)
      (.backend "Windows handle value overflow")
    return some ⟨handle, ⟨object⟩, grantedAccess⟩

def handlesFrom (offsets : WindowsHandleTableOffsets) (table : HandleTable) :
    (remaining index : Nat) → Result (List WindowsHandle)
  | 0, _ => .ok []
  | remaining + 1, index => do
      let found ← self.handleAt offsets table index
      let rest ← handlesFrom offsets table remaining (index + 1)
      return found.toList ++ rest

def handles (eprocess : Gva) (offsets : WindowsHandleTableOffsets)
    (handleLimit : Nat) : Result (List WindowsHandle) := do
  rejectIf (eprocess.raw = 0 ∨ handleLimit = 0 ∨ offsets.Invalid)
    (.backend "invalid Windows handle-table arguments")
  match ← self.handleTable eprocess offsets handleLimit with
  | none => return []
  | some table => self.handlesFrom offsets table table.count 0

end WindowsIntrospector

/-! What sign extension computes. -/

theorem signExtend_eq (value : UInt64) {signBit : UInt8}
    (within : signBit.toNat < 64) :
    ∃ result, signExtend value signBit = .ok result ∧ result.toBitVec =
      (value.toBitVec.setWidth (signBit.toNat + 1)).signExtend 64 := by
  have width : ∃ width : UInt8, checkedAdd signBit 1 = some width ∧
      width.toNat = signBit.toNat + 1 := by
    refine ⟨UInt8.ofNat (signBit.toNat + 1), ?_, ?_⟩
    · rw [checkedAdd_eq_some, unsigned_toNat_uint8, UInt8.toNat_ofNat_of_lt']
      · rfl
      · simp only [UInt8.size]
        omega
    · apply UInt8.toNat_ofNat_of_lt'
      simp only [UInt8.size]
      omega
  obtain ⟨width, widened, widthEq⟩ := width
  obtain ⟨signMask, shifted, signEq⟩ := one_checkedShl signBit.toNat within
  unfold signExtend
  rw [widened, okOr_some, ok_bind, shifted]
  split
  · rename_i full
    have bits : signBit.toNat + 1 = 64 := by
      rw [← widthEq, full]
      rfl
    have low : (0xffffffffffffffff : UInt64).toNat =
        2 ^ (signBit.toNat + 1) - 1 := by
      rw [bits]
      rfl
    have extended := truncated_sign value _ signMask low signEq
    refine ⟨_, ?_, extended⟩
    simp only [pure_eq_ok, ok_bind, okOr_some]
    split <;> rfl
  · rename_i narrow
    have below : width.toNat < 64 := by
      have other : width.toNat ≠ 64 := fun same =>
        narrow (UInt8.toNat_inj.mp same)
      omega
    obtain ⟨lowMask, computed, low⟩ := low_mask_computed width.toNat below
    rw [widthEq] at low
    have extended := truncated_sign value lowMask signMask low signEq
    refine ⟨_, ?_, extended⟩
    rw [computed]
    simp only [ok_bind, okOr_some]
    split <;> rfl

/-- A word that is the sign extension of its own low bits. -/
def Canonical (word : UInt64) (signBit : UInt8) : Prop :=
  (word.toBitVec.setWidth (signBit.toNat + 1)).signExtend 64 = word.toBitVec

theorem signExtend_canonical {value result : UInt64} {signBit : UInt8}
    (within : signBit.toNat < 64)
    (extended : signExtend value signBit = .ok result) :
    Canonical result signBit := by
  obtain ⟨_, found, bits⟩ := signExtend_eq value within
  rw [extended] at found
  cases found
  rw [Canonical, bits, setWidth_signExtend _ (by omega)]

theorem signExtend_eq_zero {value result : UInt64} {signBit : UInt8}
    (within : signBit.toNat < 64)
    (extended : signExtend value signBit = .ok result) :
    result = 0 ↔ value.toNat % 2 ^ (signBit.toNat + 1) = 0 := by
  obtain ⟨_, found, bits⟩ := signExtend_eq value within
  rw [extended] at found
  cases found
  have kept : value.toBitVec.setWidth (signBit.toNat + 1) =
      result.toBitVec.setWidth (signBit.toNat + 1) := by
    rw [bits, setWidth_signExtend _ (by omega)]
  have zero : result = 0 ↔
      value.toBitVec.setWidth (signBit.toNat + 1) = 0#(signBit.toNat + 1) := by
    constructor
    · intro same
      rw [kept, same]
      simp
    · intro same
      rw [same] at bits
      apply UInt64.toBitVec_inj.mp
      apply BitVec.eq_of_getLsbD_eq
      intro position _
      rw [bits, BitVec.getLsbD_signExtend]
      simp
  rw [zero, ← BitVec.toNat_inj, BitVec.toNat_setWidth, BitVec.toNat_ofNat,
    Nat.zero_mod]
  rfl

end LibVmi.Os
