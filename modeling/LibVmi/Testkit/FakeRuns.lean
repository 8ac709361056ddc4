import LibVmi.Artifact.Files
import LibVmi.Data.Runs
import LibVmi.Driver
import LibVmi.Testkit.SparseWrites
import LibVmi.Xen.Connector

namespace LibVmi.Testkit

open Data
open Xen (ProviderDescriptor TargetDescriptor AttachRequest ExecutionState)

/-! The whole fake provider. Each part of a session that changes is behind a
lock of its own, which a call that uses it takes once, so calls of several
threads follow one another. -/

inductive LifecycleEvent where
  | reconnected (generation : UInt64)
  | rebooted (generation : UInt64)
  | memoryTopologyChanged (generation : UInt64)
  | destroyed (generation : UInt64)
  deriving DecidableEq

def LifecycleEvent.generation : LifecycleEvent → UInt64
  | .reconnected generation => generation
  | .rebooted generation => generation
  | .memoryTopologyChanged generation => generation
  | .destroyed generation => generation

abbrev Registers := UInt32 → String → Option UInt64

def Registers.set (registers : Registers) (vcpu : UInt32) (register : String)
    (value : UInt64) : Registers := fun otherVcpu other =>
  if otherVcpu = vcpu ∧ other = register then some value
  else registers otherVcpu other

structure FakeConnector where
  descriptor : ProviderDescriptor
  target : TargetDescriptor
  capabilities : CapabilitySet
  segments : List SparseSegment
  registers : Registers
  events : List VmiEvent
  readFaults : List UInt64
  writeFaults : List UInt64

/-- What a session keeps as it was attached. -/
structure AttachedFake where
  provider : ProviderDescriptor
  target : TargetDescriptor
  capabilities : CapabilitySet
  readFaults : List UInt64
  writeFaults : List UInt64

/-- What is behind its locks. -/
structure FakeState where
  segments : List SparseSegment
  registers : Registers
  executionState : ExecutionState
  events : List VmiEvent
  activeView : UInt16
  generation : UInt64
  lifecycleEvents : List LifecycleEvent

namespace FakeConnector

def new : FakeConnector where
  descriptor := {
    id := "fake-read-only"
    displayName := "Fake Read-Only Provider"
    version := none
    maturity := .supported
    capabilities := .fromCaps [.memoryRead] }
  target := {
    id := "fake-target"
    displayName := some "Fake Target"
    architecture := .amd64
    consistency := .immutableSnapshot }
  capabilities := .fromCaps [.memoryRead]
  segments := []
  registers := fun _ _ => none
  events := []
  readFaults := []
  writeFaults := []

def withCapabilities (self : FakeConnector) (capabilities : CapabilitySet) :
    FakeConnector :=
  { self with
    capabilities := capabilities
    descriptor := { self.descriptor with capabilities := capabilities } }

def withSegment (self : FakeConnector) (start : Gpa) (bytes : Buffer) :
    FakeConnector :=
  { self with segments := self.segments ++ [⟨start, bytes⟩] }

def withRegister (self : FakeConnector) (vcpu : UInt32) (register : String)
    (value : UInt64) : FakeConnector :=
  { self with registers := self.registers.set vcpu register value }

def withEvent (self : FakeConnector) (event : VmiEvent) : FakeConnector :=
  { self with events := self.events ++ [event] }

def withReadFault (self : FakeConnector) (address : Gpa) : FakeConnector :=
  { self with readFaults := address.raw :: self.readFaults }

def withWriteFault (self : FakeConnector) (address : Gpa) : FakeConnector :=
  { self with writeFaults := address.raw :: self.writeFaults }

def openSession (self : FakeConnector) : AttachedFake × FakeState :=
  (⟨self.descriptor, self.target, self.capabilities, self.readFaults,
      self.writeFaults⟩,
    ⟨self.segments, self.registers, .running, self.events, 0, 1, []⟩)

def connect (self : FakeConnector) (request : AttachRequest) :
    Result (AttachedFake × FakeState) :=
  match validateSegments self.segments with
  | .error error => .error error
  | .ok () =>
      let missing := request.requiredCapabilities.differenceOf
        self.capabilities
      if missing.isEmpty = false then
        .error (.attachRejected self.descriptor.id missing)
      else
        match request.selector with
        | .named expected =>
            if expected ≠ self.target.id ∧
                expected ≠ self.target.displayName.getD "" then
              .error (.backend ("target " ++ expected ++
                " not found for provider " ++ self.descriptor.id))
            else .ok self.openSession
        | .any => .ok self.openSession

end FakeConnector

/-! The calls. A call that saves memory gives the bytes that are published. -/

inductive FakeCall : Type → Type
  | readInto (address : Gpa) (buffer : List UInt8) :
      FakeCall (List UInt8 × Result Unit)
  | write (address : Gpa) (data : List UInt8) : FakeCall (Result Unit)
  | readRegister (vcpu : UInt32) (register : String) :
      FakeCall (Result UInt64)
  | writeRegister (vcpu : UInt32) (register : String) (value : UInt64) :
      FakeCall (Result Unit)
  | executionState : FakeCall (Result ExecutionState)
  | pause : FakeCall (Result Unit)
  | resume : FakeCall (Result Unit)
  | nextEvent : FakeCall (Result (Option VmiEvent))
  | activeView : FakeCall (Result UInt16)
  | switchView (view : UInt16) : FakeCall (Result Unit)
  | physicalRange (start : Gpa) (length : UInt64) :
      FakeCall (Result (List UInt8))
  | snapshot : FakeCall (Result (List UInt8))
  | generation : FakeCall UInt64
  | nextLifecycleEvent : FakeCall (Result (Option LifecycleEvent))

namespace AttachedFake

variable (self : AttachedFake) (state : FakeState)

/-- The session as its memory access sees it. -/
def writable : WritableSession where
  segments := state.segments
  readFaults := self.readFaults
  provider := self.provider.id
  capabilities := self.capabilities
  writeFaults := self.writeFaults

def require (capability : Capability) : Result Unit :=
  (self.writable state).require capability

def readInto (address : Gpa) (buffer : List UInt8) :
    List UInt8 × Result Unit :=
  match self.require state .memoryRead with
  | .error error => (buffer, .error error)
  | .ok () =>
      FakeSession.readSparseInto ⟨state.segments, self.readFaults⟩ address
        buffer

def write (address : Gpa) (data : List UInt8) : FakeState × Result Unit :=
  let (segments, result) := (self.writable state).write address data
  ({ state with segments }, result)

def readRegister (vcpu : UInt32) (register : String) : Result UInt64 := do
  self.require state .registerRead
  okOr (state.registers vcpu register) (.backend
    s!"fake register {register} for vCPU {vcpu} is not defined")

def writeRegister (vcpu : UInt32) (register : String) (value : UInt64) :
    FakeState × Result Unit :=
  match self.require state .registerWrite with
  | .error error => (state, .error error)
  | .ok () =>
      ({ state with registers := state.registers.set vcpu register value },
        .ok ())

def executionState : Result ExecutionState := do
  self.require state .control
  return state.executionState

def pause : FakeState × Result Unit :=
  match self.require state .control with
  | .error error => (state, .error error)
  | .ok () => ({ state with executionState := .paused }, .ok ())

def resume : FakeState × Result Unit :=
  match self.require state .control with
  | .error error => (state, .error error)
  | .ok () => ({ state with executionState := .running }, .ok ())

def nextEvent : FakeState × Result (Option VmiEvent) :=
  match self.require state .events with
  | .error error => (state, .error error)
  | .ok () =>
      ({ state with events := state.events.tail }, .ok state.events.head?)

def activeView : Result UInt16 := do
  self.require state .memoryView
  return state.activeView

def switchView (view : UInt16) : FakeState × Result Unit :=
  match self.require state .memoryView with
  | .error error => (state, .error error)
  | .ok () => ({ state with activeView := view }, .ok ())

/-- What `save_physical_range` publishes. It reads without asking for the
capability to read. -/
def physicalRange (start : Gpa) (length : UInt64) : Result (List UInt8) := do
  self.require state .acquisition
  rejectIf (2 ^ 63 ≤ length.toNat) (.backend
    ("failed to allocate fake acquisition: " ++ Artifact.capacityOverflow))
  let (bytes, result) := FakeSession.readSparseInto
    ⟨state.segments, self.readFaults⟩ start (List.replicate length.toNat 0)
  let _ ← result
  return bytes

end AttachedFake

def snapshotRecord (segment : SparseSegment) : List UInt8 :=
  toLe 8 segment.lower ++ toLe 8 segment.bytes.length ++ segment.bytes.bytes

def snapshotRecords : List SparseSegment → Buffer → Result Buffer
  | [], bytes => .ok bytes
  | segment :: rest, bytes => do
      let longer ← okOr
        (Buffer.allocate (bytes.bytes ++ snapshotRecord segment))
        (.backend ("failed to allocate fake snapshot: " ++
          Artifact.capacityOverflow))
      snapshotRecords rest longer

namespace AttachedFake

variable (self : AttachedFake) (state : FakeState)

/-- What `save_snapshot` publishes. -/
def snapshot : Result (List UInt8) := do
  self.require state .acquisition
  let bytes ← snapshotRecords state.segments .empty
  return bytes.bytes

def nextLifecycleEvent : FakeState × Result (Option LifecycleEvent) :=
  match self.require state .lifecycle with
  | .error error => (state, .error error)
  | .ok () =>
      match state.lifecycleEvents with
      | [] => (state, .ok none)
      | event :: rest =>
          ({ state with
            lifecycleEvents := rest
            generation := max state.generation event.generation },
            .ok (some event))

def perform : FakeCall α → FakeState × α
  | .readInto address buffer => (state, self.readInto state address buffer)
  | .write address data => self.write state address data
  | .readRegister vcpu register =>
      (state, self.readRegister state vcpu register)
  | .writeRegister vcpu register value =>
      self.writeRegister state vcpu register value
  | .executionState => (state, self.executionState state)
  | .pause => self.pause state
  | .resume => self.resume state
  | .nextEvent => self.nextEvent state
  | .activeView => (state, self.activeView state)
  | .switchView view => self.switchView state view
  | .physicalRange start length =>
      (state, self.physicalRange state start length)
  | .snapshot => (state, self.snapshot state)
  | .generation => (state, state.generation)
  | .nextLifecycleEvent => self.nextLifecycleEvent state

end AttachedFake

/-! The machine that a session stands for. -/

structure FakeMachine where
  memory : Nat → Option UInt8
  recordLength : Nat
  registers : Registers
  executionState : ExecutionState
  events : List VmiEvent
  activeView : UInt16

/-- What the records of a snapshot come to. -/
def recordLength (segments : List SparseSegment) : Nat :=
  (segments.map fun segment => (snapshotRecord segment).length).sum

def FakeMachine.store (machine : FakeMachine) (start : Nat)
    (values : List UInt8) : FakeMachine :=
  { machine with memory := Sparse.overlay start values machine.memory }

def FakeState.machine (state : FakeState) : FakeMachine where
  memory := FakeSession.memoryOf state.segments
  recordLength := recordLength state.segments
  registers := state.registers
  executionState := state.executionState
  events := state.events
  activeView := state.activeView

/-- Memory as it is seen past injected faults. -/
def past (faults : List UInt64) (memory : Nat → Option UInt8)
    (address : Nat) : Option UInt8 :=
  if ∃ fault ∈ faults, fault.toNat = address then none else memory address

/-- A file of records says what a memory holds. -/
inductive Records : List UInt8 → (Nat → Option UInt8) → Prop
  | nil : Records [] fun _ => none
  | cons {start : UInt64} {content rest : List UInt8}
      {memory : Nat → Option UInt8} :
      content.length < 2 ^ 64 → Records rest memory →
      Records (toLe 8 start.toNat ++ toLe 8 content.length ++ content ++ rest)
        (Sparse.overlay start.toNat content memory)

namespace FakeCall

def capability : FakeCall α → Option Capability
  | .readInto _ _ => some .memoryRead
  | .write _ _ => some .memoryWrite
  | .readRegister _ _ => some .registerRead
  | .writeRegister _ _ _ => some .registerWrite
  | .executionState | .pause | .resume => some .control
  | .nextEvent => some .events
  | .activeView | .switchView _ => some .memoryView
  | .physicalRange _ _ | .snapshot => some .acquisition
  | .generation => none
  | .nextLifecycleEvent => some .lifecycle

/-- What a call answers that is refused. -/
def Refused : FakeCall α → VmiError → α → Prop
  | .readInto _ buffer, error, answer => answer = (buffer, .error error)
  | .write _ _, error, answer => answer = .error error
  | .readRegister _ _, error, answer => answer = .error error
  | .writeRegister _ _ _, error, answer => answer = .error error
  | .executionState, error, answer => answer = .error error
  | .pause, error, answer => answer = .error error
  | .resume, error, answer => answer = .error error
  | .nextEvent, error, answer => answer = .error error
  | .activeView, error, answer => answer = .error error
  | .switchView _, error, answer => answer = .error error
  | .physicalRange _ _, error, answer => answer = .error error
  | .snapshot, error, answer => answer = .error error
  | .generation, _, _ => False
  | .nextLifecycleEvent, error, answer => answer = .error error

/-- What a call does to the machine, and what it answers. A read and a write go
as far as the memory does. A snapshot says what the memory holds and nothing
else; from `2 ^ 62` bytes on it may fail for want of room, and from `2 ^ 63` on
it does. -/
def Right (session : AttachedFake) (before after : FakeMachine) :
    FakeCall α → α → Prop
  | .readInto address buffer, answer => after = before ∧
      ∃ count values, count ≤ buffer.length ∧
        Sparse.read (past session.readFaults before.memory)
          address.raw.toNat count = some values ∧
        answer.1 = values ++ buffer.drop count ∧
        (answer.2 = .ok () ↔ count = buffer.length) ∧
        (count < buffer.length → past session.readFaults before.memory
          (address.raw.toNat + count) = none)
  | .write address data, answer => ∃ count, count ≤ data.length ∧
      after = before.store address.raw.toNat (data.take count) ∧
      (∀ index < count, (past session.writeFaults before.memory
        (address.raw.toNat + index)).isSome) ∧
      (answer = .ok () ↔ count = data.length) ∧
      (count < data.length → past session.writeFaults before.memory
        (address.raw.toNat + count) = none)
  | .readRegister vcpu register, answer => after = before ∧
      answer = okOr (before.registers vcpu register) (.backend
        s!"fake register {register} for vCPU {vcpu} is not defined")
  | .writeRegister vcpu register value, answer =>
      after = { before with
        registers := before.registers.set vcpu register value } ∧
      answer = .ok ()
  | .executionState, answer =>
      after = before ∧ answer = .ok before.executionState
  | .pause, answer =>
      after = { before with executionState := .paused } ∧ answer = .ok ()
  | .resume, answer =>
      after = { before with executionState := .running } ∧ answer = .ok ()
  | .nextEvent, answer =>
      after = { before with events := before.events.tail } ∧
      answer = .ok before.events.head?
  | .activeView, answer => after = before ∧ answer = .ok before.activeView
  | .switchView view, answer =>
      after = { before with activeView := view } ∧ answer = .ok ()
  | .physicalRange start length, answer => after = before ∧
      ∀ bytes, answer = .ok bytes ↔ length.toNat < 2 ^ 63 ∧
        Sparse.read (past session.readFaults before.memory) start.raw.toNat
          length.toNat = some bytes
  | .snapshot, answer => after = before ∧
      (before.recordLength < 2 ^ 62 → ∃ bytes, answer = .ok bytes) ∧
      ∀ bytes, answer = .ok bytes →
        bytes.length = before.recordLength ∧ bytes.length < 2 ^ 63 ∧
        ∀ memory, Records bytes memory ↔ memory = before.memory
  | .generation, answer => after = before ∧ answer = 1
  | .nextLifecycleEvent, answer => after = before ∧ answer = .ok none

end FakeCall

/-- A call with its answer. -/
structure FakeAnswered : Type 1 where
  {α : Type}
  call : FakeCall α
  answer : α

def AttachedFake.Performs (session : AttachedFake) (state : FakeState)
    (answered : FakeAnswered) (next : FakeState) : Prop :=
  session.perform state answered.call = (next, answered.answer)

/-- A call whose capability is missing is refused and changes nothing. -/
def MachineStep (session : AttachedFake) (before : FakeMachine)
    (answered : FakeAnswered) (after : FakeMachine) : Prop :=
  (∀ capability, answered.call.capability = some capability →
    session.capabilities.containsCapability capability = false →
    after = before ∧ answered.call.Refused
      (.capabilityMissing session.provider.id capability) answered.answer) ∧
  ((∀ capability, answered.call.capability = some capability →
      session.capabilities.containsCapability capability = true) →
    answered.call.Right session before after answered.answer)

/-! Memory. -/

theorem past_eq_some {faults : List UInt64} {memory : Nat → Option UInt8}
    {address : Nat} {byte : UInt8} :
    past faults memory address = some byte ↔
      (∀ fault ∈ faults, fault.toNat ≠ address) ∧
        memory address = some byte := by
  unfold past
  split
  · rename_i faulty
    obtain ⟨fault, member, same⟩ := faulty
    exact iff_of_false nofun fun clear => clear.1 fault member same
  · rename_i faultless
    refine (and_iff_right ?_).symm
    intro fault member same
    exact faultless ⟨fault, member, same⟩

theorem toLe_inj {left right : Nat} (small : left < 2 ^ 64)
    (smallToo : right < 2 ^ 64) (same : toLe 8 left = toLe 8 right) :
    left = right := by
  have read := congrArg fromLe same
  rwa [fromLe_toLe (by omega), fromLe_toLe (by omega)] at read

/-- A file of records says no more than one thing. -/
theorem Records.unique {bytes : List UInt8} {memory other : Nat → Option UInt8}
    (first : Records bytes memory) (second : Records bytes other) :
    memory = other := by
  induction first generalizing other with
  | nil =>
      generalize same : ([] : List UInt8) = bytes at second
      cases second with
      | nil => rfl
      | cons =>
          have lengths := congrArg List.length same
          simp at lengths
          omega
  | @cons start content rest memory small _ induction =>
      generalize same : toLe 8 start.toNat ++ toLe 8 content.length ++
        content ++ rest = bytes at second
      cases second with
      | nil =>
          have lengths := congrArg List.length same
          simp at lengths
      | @cons otherStart otherContent otherRest otherMemory otherSmall tail =>
          simp only [List.append_assoc] at same
          obtain ⟨starts, same⟩ := List.append_inj same (by simp)
          obtain ⟨lengths, same⟩ := List.append_inj same (by simp)
          have lengthEq := toLe_inj small otherSmall lengths
          obtain ⟨rfl, rfl⟩ := List.append_inj same lengthEq
          rw [toLe_inj start.toNat_lt otherStart.toNat_lt starts,
            induction tail]

section Memory

variable {segments : List SparseSegment}
  (valid : validateSegments segments = .ok ())

include valid

theorem readSlot_past {faults : List UInt64} {address : Gpa}
    {bufferLen index : Nat} {byte : UInt8} :
    FakeSession.readSlot ⟨segments, faults⟩ address bufferLen index =
        .ok byte ↔
      past faults (FakeSession.memoryOf segments)
        (address.raw.toNat + index) = some byte := by
  have plain := @FakeSession.readSlot_eq_ok segments valid address bufferLen
    index byte
  rw [past_eq_some, ← plain]
  by_cases clear : ∀ fault ∈ faults, fault.toNat ≠ address.raw.toNat + index
  · rw [FakeSession.readSlot_without_faults clear]
    exact (and_iff_right clear).symm
  · refine iff_of_false ?_ fun both => clear both.1
    intro read
    unfold FakeSession.readSlot at read
    simp only [bind_eq_ok, okOr_eq_ok, tryFrom_eq_some, checkedAdd_eq_some,
      rejectIf_eq_ok, unsigned_toNat_uint64] at read
    obtain ⟨word, rfl, absolute, sum, _, faultless, _⟩ := read
    refine clear fun fault member same => faultless ?_
    rwa [← UInt64.toNat_inj.mp (same.trans sum.symm)]

theorem writable_past {faults : List UInt64} {address : Nat} :
    Writable segments faults address ↔
      (past faults (FakeSession.memoryOf segments) address).isSome := by
  have held : (FakeSession.memoryOf segments address).isSome ↔
      ∃ segment ∈ segments, segment.lower ≤ address ∧
        address < segment.upper := Sparse.lookup_isSome
  constructor
  · intro writable
    obtain ⟨byte, found⟩ :=
      Option.isSome_iff_exists.mp (held.mpr writable.held)
    rw [past_eq_some.mpr ⟨writable.faultless, found⟩]
    rfl
  · intro present
    obtain ⟨byte, seen⟩ := Option.isSome_iff_exists.mp present
    obtain ⟨clear, found⟩ := past_eq_some.mp seen
    have some := Option.isSome_of_eq_some found
    exact ⟨FakeSession.memoryOf_below valid some, held.mp some, clear⟩

/-- The slots of a read are filled as far as memory is seen. -/
theorem readSlots_past {faults : List UInt64} {address : Gpa}
    {bufferLen : Nat} (index : Nat) (slots : List UInt8) :
    ∃ count values, count ≤ slots.length ∧
      Sparse.read (past faults (FakeSession.memoryOf segments))
        (address.raw.toNat + index) count = some values ∧
      (FakeSession.readSlots ⟨segments, faults⟩ address bufferLen index
        slots).1 = values ++ slots.drop count ∧
      ((FakeSession.readSlots ⟨segments, faults⟩ address bufferLen index
        slots).2 = .ok () ↔ count = slots.length) ∧
      (count < slots.length → past faults (FakeSession.memoryOf segments)
        (address.raw.toNat + index + count) = none) := by
  induction slots generalizing index with
  | nil =>
      exact ⟨0, [], Nat.le_refl 0, rfl, rfl,
        by simp [FakeSession.readSlots], nofun⟩
  | cons slot rest induction =>
      have here := fun byte =>
        @readSlot_past _ valid faults address bufferLen index byte
      rw [FakeSession.readSlots]
      cases read : FakeSession.readSlot ⟨segments, faults⟩ address bufferLen
          index with
      | error error =>
          refine ⟨0, [], Nat.zero_le _, rfl, rfl, by simp, fun _ => ?_⟩
          cases seen : past faults (FakeSession.memoryOf segments)
              (address.raw.toNat + index) with
          | none => rfl
          | some byte =>
              rw [(here byte).mpr seen] at read
              cases read
      | ok byte =>
          obtain ⟨count, values, within, taken, filled, done, stopped⟩ :=
            induction (index + 1)
          refine ⟨count + 1, byte :: values, Nat.succ_le_succ within,
            Sparse.read_succ_eq_some.mpr ⟨(here byte).mp read, taken⟩, ?_, ?_,
            ?_⟩
          · simpa using filled
          · simpa using done
          · intro more
            have later := stopped (by simpa using more)
            rwa [show address.raw.toNat + index + (count + 1) =
              address.raw.toNat + (index + 1) + count by omega]

end Memory

theorem memoryOf_isSome {segments : List SparseSegment} {address : Nat} :
    (FakeSession.memoryOf segments address).isSome ↔
      ∃ segment ∈ segments, segment.lower ≤ address ∧
        address < segment.upper :=
  Sparse.lookup_isSome

/-- A write lays its bytes over the memory. -/
theorem Stored.memory {start : Nat} {values : List UInt8}
    {segments after : List SparseSegment}
    (stored : Stored start values segments after)
    (present : ∀ index < values.length,
      (FakeSession.memoryOf segments (start + index)).isSome) :
    FakeSession.memoryOf after =
      Sparse.overlay start values (FakeSession.memoryOf segments) := by
  funext address
  by_cases held : (FakeSession.memoryOf segments address).isSome
  · exact Sparse.lookup_overlaid stored held
  · have outside : address < start ∨ start + values.length ≤ address := by
      by_contra inside
      have found := present (address - start) (by omega)
      rw [Nat.add_sub_cancel' (by omega)] at found
      exact held found
    have absent : ¬ (FakeSession.memoryOf after address).isSome := by
      rw [memoryOf_isSome, held_iff_ends, ← stored.ends, ← held_iff_ends,
        ← memoryOf_isSome]
      exact held
    rw [Sparse.overlay_outside outside,
      Option.not_isSome_iff_eq_none.mp absent,
      Option.not_isSome_iff_eq_none.mp held]

/-! What is published. -/

theorem length_snapshotRecord (segment : SparseSegment) :
    (snapshotRecord segment).length = 16 + segment.bytes.length := by
  simp [snapshotRecord, Buffer.length]
  omega

theorem recordLength_cons (segment : SparseSegment)
    (others : List SparseSegment) :
    recordLength (segment :: others) =
      (snapshotRecord segment).length + recordLength others := rfl

theorem recordLength_eq (segments : List SparseSegment) :
    recordLength segments = ((segments.map SparseSegment.ends).map
      fun range => 16 + (range.2 - range.1)).sum := by
  unfold recordLength
  rw [List.map_map]
  congr 2
  funext segment
  rw [length_snapshotRecord]
  simp only [Function.comp, SparseSegment.ends, SparseSegment.lower]
  rw [Nat.add_sub_cancel_left]

/-- A write leaves the ends of every segment where they were. -/
theorem Stored.recordLength {start : Nat} {values : List UInt8}
    {segments after : List SparseSegment}
    (stored : Stored start values segments after) :
    Testkit.recordLength segments = Testkit.recordLength after := by
  rw [recordLength_eq, recordLength_eq, stored.ends]

theorem snapshotRecords_length {segments : List SparseSegment}
    {bytes all : Buffer} (made : snapshotRecords segments bytes = .ok all) :
    all.length = bytes.length + recordLength segments := by
  induction segments generalizing bytes with
  | nil =>
      cases made
      rfl
  | cons segment others induction =>
      unfold snapshotRecords at made
      obtain ⟨longer, grown, made⟩ := bind_eq_ok.mp made
      rw [okOr_eq_ok] at grown
      rw [induction made, Buffer.length_of_allocate grown, recordLength_cons,
        Nat.add_assoc]

theorem snapshotRecords_made {segments : List SparseSegment} {bytes : Buffer}
    (fits : bytes.length + recordLength segments < 2 ^ 63) :
    ∃ all, snapshotRecords segments bytes = .ok all := by
  induction segments generalizing bytes with
  | nil => exact ⟨bytes, rfl⟩
  | cons segment others induction =>
      rw [recordLength_cons, ← Nat.add_assoc] at fits
      have room : (bytes.bytes ++ snapshotRecord segment).length < 2 ^ 63 := by
        rw [List.length_append]
        exact Nat.lt_of_le_of_lt (Nat.le_add_right _ _) fits
      have grown : Buffer.allocate (bytes.bytes ++ snapshotRecord segment) =
          some ⟨_, room⟩ := Buffer.allocate_eq_some.mpr rfl
      obtain ⟨all, made⟩ := @induction ⟨_, room⟩ (by
        rw [← Buffer.length_of_allocate grown] at fits
        exact fits)
      unfold snapshotRecords
      rw [grown]
      exact ⟨all, made⟩

theorem snapshotRecords_describe {segments : List SparseSegment}
    {bytes all : Buffer} (made : snapshotRecords segments bytes = .ok all) :
    ∃ rest, all.bytes = bytes.bytes ++ rest ∧
      Records rest (FakeSession.memoryOf segments) := by
  induction segments generalizing bytes with
  | nil =>
      cases made
      exact ⟨[], (List.append_nil _).symm, .nil⟩
  | cons segment others induction =>
      unfold snapshotRecords at made
      obtain ⟨longer, grown, made⟩ := bind_eq_ok.mp made
      rw [okOr_eq_ok, Buffer.allocate_eq_some] at grown
      obtain ⟨rest, same, records⟩ := induction made
      have memory : FakeSession.memoryOf (segment :: others) =
          Sparse.overlay segment.start.raw.toNat segment.bytes.bytes
            (FakeSession.memoryOf others) := by
        funext address
        unfold Sparse.overlay
        split
        · rename_i inside
          exact (@Sparse.lookup_cons_within _ _ SparseSegment.lower
            (fun segment => segment.bytes.bytes) segment others address
            inside.1 inside.2).trans (if_pos inside.1)
        · rename_i outside
          refine Sparse.lookup_cons_outside ?_
          simp only [SparseSegment.lower, Sparse.upper]
          omega
      refine ⟨snapshotRecord segment ++ rest, ?_, ?_⟩
      · rw [same, grown, List.append_assoc]
      · rw [memory]
        exact .cons (Nat.lt_trans segment.bytes.length_lt (by decide)) records

/-! The calls. -/

/-- What every session keeps. -/
structure FakeState.Sound (state : FakeState) : Prop where
  valid : validateSegments state.segments = .ok ()
  generation : state.generation = 1
  lifecycleEvents : state.lifecycleEvents = []

section Steps

variable {session : AttachedFake} {state : FakeState}

theorem require_eq (capability : Capability) :
    session.require state capability =
      if session.capabilities.containsCapability capability then .ok ()
      else .error (.capabilityMissing session.provider.id capability) := rfl

theorem refused_step {call : FakeCall α} {answer : α} {next : FakeState}
    (performed : session.perform state call = (next, answer))
    {capability : Capability} (named : call.capability = some capability)
    (missing : session.capabilities.containsCapability capability = false) :
    next = state ∧ call.Refused
      (.capabilityMissing session.provider.id capability) answer := by
  have refused : session.require state capability =
      .error (.capabilityMissing session.provider.id capability) := by
    rw [require_eq, missing]
    rfl
  cases call with
  | generation => cases named
  | write address data =>
      cases named
      have stopped : (session.writable state).write address data =
          (state.segments, .error
            (.capabilityMissing session.provider.id .memoryWrite)) := by
        unfold WritableSession.write
        rw [show (session.writable state).require .memoryWrite = _ from refused]
        rfl
      simp only [AttachedFake.perform, AttachedFake.write, stopped] at performed
      cases performed
      exact ⟨rfl, rfl⟩
  | _ =>
      cases named
      simp only [AttachedFake.perform, AttachedFake.readInto,
        AttachedFake.readRegister, AttachedFake.writeRegister,
        AttachedFake.executionState, AttachedFake.pause, AttachedFake.resume,
        AttachedFake.nextEvent, AttachedFake.activeView,
        AttachedFake.switchView, AttachedFake.physicalRange,
        AttachedFake.snapshot, AttachedFake.nextLifecycleEvent, refused]
        at performed
      cases performed
      exact ⟨rfl, rfl⟩

theorem write_step (sound : state.Sound) {address : Gpa} {data : List UInt8}
    {answer : Result Unit} {next : FakeState}
    (performed : session.write state address data = (next, answer))
    (allowed : session.capabilities.containsCapability .memoryWrite = true) :
    (FakeCall.write address data).Right session state.machine next.machine
      answer ∧ next.Sound := by
  obtain ⟨count, stores⟩ := @WritableSession.write_storedPrefix
    (session.writable state) sound.valid allowed address data
  unfold AttachedFake.write at performed
  generalize (session.writable state).write address data = run at *
  obtain ⟨segments, result⟩ := run
  cases performed
  have seen : ∀ index < count, (past session.writeFaults
      (FakeSession.memoryOf state.segments)
      (address.raw.toNat + index)).isSome := fun index below =>
    (writable_past sound.valid).mp (stores.writable index below)
  have memory := stores.stored.memory fun index below => by
    rw [List.length_take] at below
    exact memoryOf_isSome.mpr (stores.writable index (by omega)).held
  refine ⟨⟨count, stores.within, ?_, seen, stores.complete, fun more => ?_⟩,
    stores.stored.valid sound.valid, sound.generation, sound.lifecycleEvents⟩
  · simp only [FakeState.machine, FakeMachine.store]
    rw [show FakeSession.memoryOf segments = _ from memory,
      ← stores.stored.recordLength]
    rfl
  · have stopped : ¬ Writable state.segments session.writeFaults
        (address.raw.toNat + count) := stores.stopped more
    rw [writable_past sound.valid, Option.not_isSome_iff_eq_none] at stopped
    exact stopped

theorem physicalRange_step (sound : state.Sound) {start : Gpa}
    {length : UInt64}
    (allowed : session.require state .acquisition = .ok ())
    (bytes : List UInt8) :
    session.physicalRange state start length = .ok bytes ↔
      length.toNat < 2 ^ 63 ∧ Sparse.read (past session.readFaults
        state.machine.memory) start.raw.toNat length.toNat = some bytes := by
  obtain ⟨count, values, within, taken, filled, done, stopped⟩ :=
    @readSlots_past _ sound.valid session.readFaults start length.toNat 0
      (List.replicate length.toNat 0)
  rw [List.length_replicate] at within done stopped
  have whole : Sparse.read (past session.readFaults state.machine.memory)
      start.raw.toNat length.toNat = some bytes ↔
        count = length.toNat ∧ values = bytes := by
    constructor
    · intro read
      have full : count = length.toNat := by
        by_contra short
        have missing := stopped (by omega)
        have there := (Sparse.read_eq_some.mp read).2 count (by omega)
        rw [Nat.add_zero] at missing
        rw [show past session.readFaults state.machine.memory
          (start.raw.toNat + count) = none from missing] at there
        have lengths := (Sparse.read_eq_some.mp read).1
        have beyond := List.getElem?_eq_none_iff.mp there.symm
        omega
      subst full
      exact ⟨rfl, Option.some.inj (taken.symm.trans read)⟩
    · rintro ⟨rfl, rfl⟩
      exact taken
  unfold AttachedFake.physicalRange FakeSession.readSparseInto
  rw [allowed, ok_bind, whole]
  simp only [bind_eq_ok, rejectIf_eq_ok, exists_const, Nat.not_le, pure_eq_ok,
    Except.ok.injEq, List.length_replicate]
  generalize FakeSession.readSlots ⟨state.segments, session.readFaults⟩ start
    _ 0 _ = run at *
  obtain ⟨read, result⟩ := run
  refine and_congr_right fun _ => ?_
  constructor
  · rintro ⟨_, rfl, rfl⟩
    have full := done.mp rfl
    refine ⟨full, ?_⟩
    rw [filled, full, List.drop_of_length_le (by simp), List.append_nil]
  · rintro ⟨full, rfl⟩
    refine ⟨(), done.mpr full, ?_⟩
    rw [filled, full, List.drop_of_length_le (by simp), List.append_nil]

theorem snapshot_step (allowed : session.require state .acquisition = .ok ()) :
    (state.machine.recordLength < 2 ^ 62 →
      ∃ bytes, session.snapshot state = .ok bytes) ∧
    ∀ bytes, session.snapshot state = .ok bytes →
      bytes.length = state.machine.recordLength ∧ bytes.length < 2 ^ 63 ∧
      ∀ memory, Records bytes memory ↔ memory = state.machine.memory := by
  unfold AttachedFake.snapshot
  rw [allowed, ok_bind]
  constructor
  · intro small
    have short : Buffer.empty.length + recordLength state.segments < 2 ^ 63 := by
      rw [show Buffer.empty.length = 0 from rfl, Nat.zero_add]
      exact Nat.lt_trans small (by decide)
    obtain ⟨all, recorded⟩ := snapshotRecords_made short
    rw [recorded]
    exact ⟨all.bytes, rfl⟩
  · intro bytes made
    obtain ⟨all, recorded, same⟩ := bind_eq_ok.mp made
    cases same
    have lengths : all.length = recordLength state.segments :=
      (snapshotRecords_length recorded).trans (Nat.zero_add _)
    obtain ⟨rest, whole, records⟩ := snapshotRecords_describe recorded
    refine ⟨lengths, all.length_lt, fun memory => ?_⟩
    have described : Records all.bytes state.machine.memory := by
      rw [whole]
      exact records
    exact ⟨fun other => other.unique described, fun same => same ▸ described⟩

theorem permitted_step (sound : state.Sound) {call : FakeCall α} {answer : α}
    {next : FakeState}
    (performed : session.perform state call = (next, answer))
    (permitted : ∀ capability, call.capability = some capability →
      session.capabilities.containsCapability capability = true) :
    call.Right session state.machine next.machine answer ∧ next.Sound := by
  have allowed : ∀ capability, call.capability = some capability →
      session.require state capability = .ok () := by
    intro capability named
    rw [require_eq, permitted capability named]
    rfl
  cases call with
  | write address data => exact write_step sound performed (permitted _ rfl)
  | readInto address buffer =>
      simp only [AttachedFake.perform, AttachedFake.readInto,
        allowed _ rfl] at performed
      cases performed
      exact ⟨⟨rfl, readSlots_past sound.valid 0 buffer⟩, sound⟩
  | physicalRange start length =>
      cases performed
      exact ⟨⟨rfl, physicalRange_step sound (allowed _ rfl)⟩, sound⟩
  | snapshot =>
      cases performed
      exact ⟨⟨rfl, snapshot_step (allowed _ rfl)⟩, sound⟩
  | generation =>
      cases performed
      exact ⟨⟨rfl, sound.generation⟩, sound⟩
  | nextLifecycleEvent =>
      simp only [AttachedFake.perform, AttachedFake.nextLifecycleEvent,
        allowed _ rfl, sound.lifecycleEvents] at performed
      cases performed
      exact ⟨⟨rfl, rfl⟩, sound⟩
  | readRegister vcpu register =>
      cases performed
      refine ⟨⟨rfl, ?_⟩, sound⟩
      unfold AttachedFake.readRegister
      rw [allowed _ rfl]
      rfl
  | executionState =>
      cases performed
      refine ⟨⟨rfl, ?_⟩, sound⟩
      unfold AttachedFake.executionState
      rw [allowed _ rfl]
      rfl
  | activeView =>
      cases performed
      refine ⟨⟨rfl, ?_⟩, sound⟩
      unfold AttachedFake.activeView
      rw [allowed _ rfl]
      rfl
  | _ =>
      simp only [AttachedFake.perform, AttachedFake.writeRegister,
        AttachedFake.pause, AttachedFake.resume, AttachedFake.nextEvent,
        AttachedFake.switchView, allowed _ rfl] at performed
      cases performed
      exact ⟨⟨rfl, rfl⟩, sound.valid, sound.generation, sound.lifecycleEvents⟩

theorem performs_step (sound : state.Sound) {answered : FakeAnswered}
    {next : FakeState} (performs : session.Performs state answered next) :
    MachineStep session state.machine answered next.machine ∧ next.Sound := by
  obtain ⟨call, answer⟩ := answered
  have refused : ∀ capability, call.capability = some capability →
      session.capabilities.containsCapability capability = false →
      next = state ∧ call.Refused
        (.capabilityMissing session.provider.id capability) answer :=
    fun _ named missing => refused_step performs named missing
  refine ⟨⟨fun capability named missing => ?_, fun permitted =>
    (permitted_step sound performs permitted).1⟩, ?_⟩
  · obtain ⟨same, refusal⟩ := refused capability named missing
    exact ⟨congrArg FakeState.machine same, refusal⟩
  · by_cases permitted : ∀ capability, call.capability = some capability →
        session.capabilities.containsCapability capability = true
    · exact (permitted_step sound performs permitted).2
    · simp only [not_forall, Bool.not_eq_true] at permitted
      obtain ⟨capability, named, missing⟩ := permitted
      rw [(refused capability named missing).1]
      exact sound

theorem machine_run (sound : state.Sound) {final : FakeState}
    {labels : List FakeAnswered}
    (run : Run session.Performs state labels final) :
    Run (MachineStep session) state.machine labels final.machine := by
  induction run with
  | nil => exact .nil
  | cons performs _ induction =>
      obtain ⟨stepped, kept⟩ := performs_step sound performs
      exact .cons stepped (induction kept)

end Steps

def FakeConnector.machine (self : FakeConnector) : FakeMachine where
  memory := FakeSession.memoryOf self.segments
  recordLength := recordLength self.segments
  registers := self.registers
  executionState := .running
  events := self.events
  activeView := 0

def fourBytes : FakeConnector :=
  let bytes : Buffer := ⟨[1, 2, 3, 4], by decide⟩
  ((((FakeConnector.new.withCapabilities (.fromCaps [.memoryRead, .memoryWrite,
    .registerRead, .registerWrite, .events, .acquisition])).withSegment ⟨0x1000⟩
      bytes).withRegister 0 "rip" 7).withEvent
        ⟨"BREAKPOINT", some 0, none⟩).withWriteFault ⟨0x1002⟩

theorem performs_of_answer {session : AttachedFake} {state : FakeState}
    {call : FakeCall α} {answer : α}
    (answered : (session.perform state call).2 = answer) :
    session.Performs state ⟨call, answer⟩ (session.perform state call).1 :=
  Prod.ext rfl answered

end LibVmi.Testkit
