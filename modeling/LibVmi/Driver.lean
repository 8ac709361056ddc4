import LibVmi.Types

namespace LibVmi

open Data

/-! The memory facets of a provider session. A facet is a function of the
session's state; a write hands back the state it leaves behind whether or not it
succeeds, so that a failed write may still have stored part of its data. -/

structure MemoryAccess where
  readInto : Gpa → (length : Nat) →
    Result { buffer : List UInt8 // buffer.length = length }

class Session (σ : Type) where
  memory : σ → Result MemoryAccess
  /-- Whether the write facet is exposed, and its `write`. -/
  memoryWrite : σ → Result Unit
  write : σ → Gpa → List UInt8 → σ × Result Unit

/-- The bytes that one call of `read_into` fills its buffer with. -/
def MemoryAccess.bytes (memory : MemoryAccess) (address : Gpa) (length : Nat) :
    Result (List UInt8) := do
  let buffer ← memory.readInto address length
  return buffer.val

def allocateReadBuffer (length : Nat) : Result Unit :=
  tryReserveExact length s!"failed to allocate {length}-byte read buffer"

def readBytes (memory : MemoryAccess) (address : Gpa) (length : Nat) :
    Result (List UInt8) := do
  allocateReadBuffer length
  memory.bytes address length

theorem readBytes_of_room (memory : MemoryAccess) (address : Gpa)
    {length : Nat} (room : length < 2 ^ 63) :
    readBytes memory address length = memory.bytes address length := by
  have reserved : allocateReadBuffer length = .ok () :=
    tryReserveExact_eq_ok.mpr room
  rw [readBytes, reserved, ok_bind]

def readScalar (α : Type) [Scalar α] (memory : MemoryAccess) (address : Gpa)
    (order : ByteOrder) : Result α := do
  allocateReadBuffer (Scalar.width α)
  let buffer ← memory.readInto address (Scalar.width α)
  match decodeScalar buffer.val order with
  | .ok value => .ok value
  | .error error => .error (.scalarDecode error)

def writeBytes [Session σ] (session : σ) (address : Gpa) (data : List UInt8) :
    σ × Result Unit :=
  Session.write session address data

structure VmiEvent where
  kind : String
  vcpu : Option UInt32
  address : Option Gpa
  deriving DecidableEq, Repr

/-! The smallest session: one contiguous range of memory from address zero. -/

structure FlatMemory where
  bytes : List UInt8
  deriving DecidableEq, Repr

namespace FlatMemory

def bytesAt (bytes : List UInt8) (start length : Nat) :
    Option { buffer : List UInt8 // buffer.length = length } :=
  match taken : slice bytes start (start + length) with
  | some buffer => some ⟨buffer, slice_width taken⟩
  | none => none

def readInto (flat : FlatMemory) (address : Gpa) (length : Nat) :
    Result { buffer : List UInt8 // buffer.length = length } :=
  okOr (bytesAt flat.bytes address.raw.toNat length)
    (.readFailed address.raw length)

def write (flat : FlatMemory) (address : Gpa) (data : List UInt8) :
    FlatMemory × Result Unit :=
  let stop := address.raw.toNat + data.length
  if stop ≤ flat.bytes.length then
    (⟨flat.bytes.take address.raw.toNat ++ data ++ flat.bytes.drop stop⟩, .ok ())
  else
    (flat, .error (.backend "write leaves the memory"))

instance : Session FlatMemory where
  memory := fun flat => .ok ⟨flat.readInto⟩
  memoryWrite := fun _ => .ok ()
  write := FlatMemory.write

end FlatMemory

end LibVmi
