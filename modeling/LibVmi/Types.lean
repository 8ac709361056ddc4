import LibVmi.Data.Bytes

namespace LibVmi

open Data

/-! Addresses. Physical, virtual and root addresses are distinct types over the
same machine word. -/

structure Gpa where
  raw : UInt64
  deriving DecidableEq, Repr

structure Gva where
  raw : UInt64
  deriving DecidableEq, Repr

structure TranslationRoot where
  raw : UInt64
  deriving DecidableEq, Repr

structure MemoryRange where
  start : Gpa
  length : UInt64
  deriving DecidableEq, Repr

namespace MemoryRange

/-- One past the last address, in the widened arithmetic of the source: the sum
of two machine words does not reach the width it saturates at. -/
def stop (range : MemoryRange) : Nat :=
  range.start.raw.toNat + range.length.toNat

def contains (range : MemoryRange) (address : Gpa) : Bool :=
  range.start.raw.toNat ≤ address.raw.toNat && address.raw.toNat < range.stop

end MemoryRange

/-! Capabilities and errors. -/

inductive Capability where
  | memoryRead
  | memoryWrite
  | registerRead
  | registerWrite
  | control
  | events
  | memoryView
  | acquisition
  | lifecycle
  deriving DecidableEq, Repr

structure CapabilitySet where
  bits : UInt64
  deriving DecidableEq, Repr

inductive ScalarDecodeError where
  | wrongWidth (expected actual : Nat)
  deriving DecidableEq, Repr

inductive VmiError where
  | attachRejected (provider : String) (missing : CapabilitySet)
  | capabilityMissing (provider : String) (capability : Capability)
  | unsupportedOperation (provider operation : String)
  | readFailed (address : UInt64) (length : Nat)
  | nonCanonicalAddress (address : UInt64) (bits : UInt8)
  | pageNotPresent (address : UInt64) (level : UInt8)
  | invalidPageTableEntry (entry : UInt64) (level : UInt8)
  | scalarDecode (error : ScalarDecodeError)
  | timeout (operation : String)
  | cancelled (operation : String)
  | backend (message : String)
  deriving DecidableEq, Repr

abbrev Result (α : Type) := Except VmiError α

instance decidableEqExcept [DecidableEq ε] [DecidableEq α] :
    DecidableEq (Except ε α)
  | .ok left, .ok right =>
      decidable_of_iff (left = right) (by simp)
  | .error left, .error right =>
      decidable_of_iff (left = right) (by simp)
  | .ok _, .error _ => .isFalse (by simp)
  | .error _, .ok _ => .isFalse (by simp)

/-- Room for that many bytes. Only a capacity past the largest allocation is
taken to fail. -/
def tryReserveExact (capacity : Nat) (failure : String) : Result Unit :=
  rejectIf (2 ^ 63 ≤ capacity) (.backend (failure ++ ": memory allocation " ++
    "failed because the computed capacity exceeded the collection's maximum"))

theorem tryReserveExact_eq_ok {capacity : Nat} {failure : String}
    {result : Unit} :
    tryReserveExact capacity failure = .ok result ↔ capacity < 2 ^ 63 := by
  rw [tryReserveExact, rejectIf_eq_ok, Nat.not_le]

theorem tryReserveExact_error {capacity : Nat} (failure : String)
    (large : 2 ^ 63 ≤ capacity) :
    ∃ message, tryReserveExact capacity failure = .error (.backend message) :=
  ⟨_, rejectIf_pos large _⟩

/-- The `{:#x}` rendering of an unsigned number. -/
def hex (value : Nat) : String :=
  "0x" ++ String.ofList (Nat.toDigits 16 value)

/-! Fixed-width scalars. -/

inductive ByteOrder where
  | littleEndian
  | bigEndian
  deriving DecidableEq, Repr

class Scalar (α : Type) where
  width : Nat
  fromLeBytes : List UInt8 → α
  fromBeBytes : List UInt8 → α

instance : Scalar UInt64 where
  width := 8
  fromLeBytes := fun bytes => UInt64.ofNat (fromLe bytes)
  fromBeBytes := fun bytes => UInt64.ofNat (fromLe bytes.reverse)

def decodeScalar [Scalar α] (bytes : List UInt8) (order : ByteOrder) :
    Except ScalarDecodeError α :=
  if bytes.length ≠ Scalar.width α then
    .error (.wrongWidth (Scalar.width α) bytes.length)
  else
    .ok (match order with
      | .littleEndian => Scalar.fromLeBytes bytes
      | .bigEndian => Scalar.fromBeBytes bytes)

end LibVmi
