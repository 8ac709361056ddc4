import LibVmi.Os.Guest
import LibVmi.Profile.SymbolTable

namespace LibVmi.Os

open Data Arch LibVmi.Core Profile

/-! The Windows introspector, as far as its two circular lists. Its growing
lists and sets are assumed to find the memory that they reserve. -/

structure WindowsProcessOffsets where
  activeProcessLinks : UInt64
  uniqueProcessId : UInt64
  imageFileName : UInt64
  imageFileNameLength : Nat
  directoryTableBase : UInt64
  deriving DecidableEq, Repr

structure WindowsProcess where
  eprocess : Gva
  pid : UInt64
  image : String
  directoryTableBase : UInt64
  deriving DecidableEq, Repr

structure WindowsModuleOffsets where
  inLoadOrderLinks : UInt64
  dllBase : UInt64
  sizeOfImage : UInt64
  baseDllName : UInt64
  maximumNameBytes : Nat
  deriving DecidableEq, Repr

structure WindowsModule where
  entry : Gva
  name : String
  base : Gva
  size : UInt32
  deriving DecidableEq, Repr

structure WindowsIntrospector (σ : Type) where
  session : VmiSession σ
  translator : AddressTranslator
  kernelRoot : TranslationRoot
  profile : SymbolTable
  offsets : WindowsProcessOffsets

namespace WindowsIntrospector

def add (base offset : UInt64) (field : String) : Result UInt64 :=
  okOr (checkedAdd base offset) (.backend s!"Windows {field} address overflow")

/-- Pairs of bytes as little-endian words, without a last byte on its own. -/
def pairedWords : List UInt8 → List UInt16
  | first :: second :: rest =>
      UInt16.ofNat (fromLe [first, second]) :: pairedWords rest
  | _ => []

variable {σ : Type} [Session σ] (self : WindowsIntrospector σ)

def readVirtual (address : Gva) (length : Nat) : Result (List UInt8) :=
  (self.session.readVirtual self.translator self.kernelRoot address length).2

def readU16 (address : UInt64) : Result UInt16 := do
  let bytes ← self.readVirtual ⟨address⟩ 2
  rejectIf (bytes.length ≠ 2) (.backend "short Windows u16 read")
  return UInt16.ofNat (fromLe bytes)

def readU32 (address : UInt64) : Result UInt32 := do
  let bytes ← self.readVirtual ⟨address⟩ 4
  rejectIf (bytes.length ≠ 4) (.backend "short Windows u32 read")
  return UInt32.ofNat (fromLe bytes)

def readU64 (address : UInt64) : Result UInt64 := do
  let bytes ← self.readVirtual ⟨address⟩ 8
  rejectIf (bytes.length ≠ 8) (.backend "short Windows pointer read")
  return UInt64.ofNat (fromLe bytes)

def readUnicodeString (address : UInt64) (maximumBytes : Nat) :
    Result String := do
  let length ← self.readU16 address
  let declaredMaximum ← self.readU16 (← add address 2 "Unicode maximum")
  rejectIf (declaredMaximum.toNat < length.toNat ∨
      maximumBytes < length.toNat ∨ length.toNat % 2 ≠ 0)
    (.backend
      s!"invalid Windows UNICODE_STRING length {length}/{declaredMaximum}")
  if length = 0 then
    return ""
  else do
    let buffer ← self.readU64 (← add address 8 "Unicode buffer")
    rejectIf (buffer = 0)
      (.backend "non-empty Windows UNICODE_STRING has null buffer")
    let bytes ← self.readVirtual ⟨buffer⟩ length.toNat
    decodeUtf16Words (pairedWords bytes) "Windows module name"

def readProcess (eprocess : UInt64) : Result WindowsProcess := do
  let pid ← self.readU64 (← add eprocess self.offsets.uniqueProcessId "PID")
  let directoryTableBase ← self.readU64
    (← add eprocess self.offsets.directoryTableBase "DTB")
  let imageAddress ← add eprocess self.offsets.imageFileName "image"
  let bytes ← self.readVirtual ⟨imageAddress⟩ self.offsets.imageFileNameLength
  let image ← decodeGuestBytes (truncateAtZero bytes) "Windows process image"
  return ⟨⟨eprocess⟩, pid, image, directoryTableBase⟩

def readModule (entry : UInt64) (offsets : WindowsModuleOffsets) :
    Result WindowsModule := do
  let base ← self.readU64 (← add entry offsets.dllBase "module base")
  let size ← self.readU32 (← add entry offsets.sizeOfImage "module size")
  let name ← self.readUnicodeString
    (← add entry offsets.baseDllName "module name") offsets.maximumNameBytes
  return ⟨⟨entry⟩, name, ⟨base⟩, size⟩

def processAt (node : UInt64) : Result WindowsProcess := do
  let eprocess ← okOr (checkedSub node self.offsets.activeProcessLinks)
    (.backend s!"invalid ActiveProcessLinks pointer {hex node.toNat}")
  self.readProcess eprocess

def processesHead (limit : Nat) : Result UInt64 := do
  rejectIf (limit = 0 ∨ self.offsets.imageFileNameLength = 0 ∨
      4096 < self.offsets.imageFileNameLength)
    (.backend "invalid Windows traversal limit or image length")
  let head ← okOr (self.profile.symbol "PsActiveProcessHead")
    (.backend "profile does not contain PsActiveProcessHead")
  return head.address

def processes (limit : Nat) : Result (List WindowsProcess) := do
  let head ← self.processesHead limit
  let node ← self.readU64 head
  enumerateCircle self.processAt self.readU64 head limit
    (.backend s!"Windows process list exceeded limit {limit}")
    (fun node => .backend
      s!"Windows process list looped at unexpected node {hex node.toNat}")
    node

def moduleAt (offsets : WindowsModuleOffsets) (node : UInt64) :
    Result WindowsModule := do
  let entry ← okOr (checkedSub node offsets.inLoadOrderLinks)
    (.backend s!"invalid module list pointer {hex node.toNat}")
  self.readModule entry offsets

def modulesHead (offsets : WindowsModuleOffsets) (limit : Nat) :
    Result UInt64 := do
  rejectIf (limit = 0 ∨ offsets.maximumNameBytes = 0 ∨
      65536 < offsets.maximumNameBytes)
    (.backend "invalid Windows module traversal limit or name length")
  let head ← okOr (self.profile.symbol "PsLoadedModuleList")
    (.backend "profile does not contain PsLoadedModuleList")
  return head.address

def modules (offsets : WindowsModuleOffsets) (limit : Nat) :
    Result (List WindowsModule) := do
  let head ← self.modulesHead offsets limit
  let node ← self.readU64 head
  enumerateCircle (self.moduleAt offsets) self.readU64 head limit
    (.backend s!"Windows module list exceeded limit {limit}")
    (fun node => .backend
      s!"Windows module list looped at unexpected node {hex node.toNat}")
    node

end WindowsIntrospector

end LibVmi.Os
