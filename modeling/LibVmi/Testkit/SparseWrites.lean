import LibVmi.Capability
import LibVmi.Testkit.FakeProvider
import Mathlib.Order.Bounds.Basic

namespace LibVmi.Testkit

open Data

/-! Writing to the fake provider. A write stores its bytes one after the other
and stops at the first that it cannot store; what it stored before stays. -/

namespace SparseSegment

/-- The segment with its byte at an absolute address replaced. -/
def withByte (segment : SparseSegment) (absolute : UInt64) (value : UInt8) :
    Option SparseSegment := do
  let offset ← checkedSub absolute segment.start.raw
  let offset ← some offset.toNat |>.filter fun offset =>
    offset < segment.bytes.length
  let _ ← segment.bytes.bytes[offset]?
  return { segment with bytes := segment.bytes.set offset value }

end SparseSegment

/-- The first segment that holds the address takes the value. -/
def storeByte (absolute : UInt64) (value : UInt8) :
    List SparseSegment → Option (List SparseSegment)
  | [] => none
  | segment :: rest =>
      match segment.withByte absolute value with
      | some stored => some (stored :: rest)
      | none => (storeByte absolute value rest).map (segment :: ·)

/-- A session with what it also keeps for its writes. -/
structure WritableSession extends FakeSession where
  provider : String
  capabilities : CapabilitySet
  writeFaults : List UInt64
  deriving DecidableEq

namespace WritableSession

def missing (session : WritableSession) (capability : Capability) : VmiError :=
  .capabilityMissing session.provider capability

def require (session : WritableSession) (capability : Capability) :
    Result Unit :=
  if session.capabilities.containsCapability capability then
    .ok ()
  else
    .error (session.missing capability)

/-- The only way to the write access of a session. -/
def memoryWrite (session : WritableSession) : Result WritableSession :=
  if session.capabilities.containsCapability .memoryWrite then
    .ok session
  else
    .error (session.missing .memoryWrite)

def storeSlot (session : WritableSession) (address : Gpa)
    (dataLen index : Nat) (value : UInt8) (segments : List SparseSegment) :
    Result (List SparseSegment) := do
  let index ← okOr (tryFrom index)
    (.backend "fake sparse write index does not fit the address model")
  let absolute ← okOr (checkedAdd address.raw index)
    (.readFailed address.raw dataLen)
  rejectIf (absolute ∈ session.writeFaults)
    (.backend ("injected fake write fault at " ++ hex absolute.toNat))
  okOr (storeByte absolute value segments) (.readFailed absolute 1)

/-- The bytes from `index` on. One that cannot be stored ends the loop and
leaves the segments as the ones before it made them. -/
def storeSlots (session : WritableSession) (address : Gpa) (dataLen : Nat) :
    (index : Nat) → List UInt8 → List SparseSegment →
      List SparseSegment × Result Unit
  | _, [], segments => (segments, .ok ())
  | index, value :: rest, segments =>
      match session.storeSlot address dataLen index value segments with
      | .error error => (segments, .error error)
      | .ok stored =>
          storeSlots session address dataLen (index + 1) rest stored

def write (session : WritableSession) (address : Gpa) (data : List UInt8) :
    List SparseSegment × Result Unit :=
  match session.require .memoryWrite with
  | .error error => (session.segments, .error error)
  | .ok () => session.storeSlots address data.length 0 data session.segments

end WritableSession

/-! The segments after a write, each with the values that fall on it. -/

def Stored (start : Nat) (values : List UInt8)
    (before after : List SparseSegment) : Prop :=
  List.Forall₂ (Sparse.Overlaid SparseSegment.lower
    (fun segment => segment.bytes.bytes) start values) before after

theorem SparseSegment.withByte_eq (segment : SparseSegment)
    (absolute : UInt64) (value : UInt8) :
    segment.withByte absolute value = (segment.byteAt absolute).map fun _ =>
      { segment with bytes :=
          segment.bytes.set (absolute.toNat - segment.lower) value } := by
  unfold withByte byteAt
  cases subtracted : checkedSub absolute segment.start.raw with
  | none => rfl
  | some offset =>
      have offsetEq : offset.toNat = absolute.toNat - segment.lower := by
        have sum : absolute.toNat = segment.lower + offset.toNat :=
          checkedSub_eq_some.mp subtracted
        omega
      simp only [Option.bind_eq_bind, Option.bind_some, offsetEq,
        Option.filter_some]
      split
      · rw [Option.bind_some, Option.bind_some, Option.map_eq_bind]
        rfl
      · rfl

theorem SparseSegment.withByte_eq_none {segment : SparseSegment}
    {absolute : UInt64} (value : UInt8) :
    segment.withByte absolute value = none ↔
      Sparse.valueIn lower (fun segment => segment.bytes.bytes) segment
        absolute.toNat = none := by
  rw [withByte_eq, Option.map_eq_none_iff, FakeSession.byteAt_eq]

theorem SparseSegment.withByte_overlaid {segment stored : SparseSegment}
    {absolute : UInt64} {value : UInt8}
    (changed : segment.withByte absolute value = some stored) :
    (segment.lower ≤ absolute.toNat ∧ absolute.toNat < segment.upper) ∧
      Sparse.Overlaid lower (fun segment => segment.bytes.bytes)
        absolute.toNat [value] segment stored := by
  rw [withByte_eq, Option.map_eq_some_iff] at changed
  obtain ⟨byte, held, rfl⟩ := changed
  rw [FakeSession.byteAt_eq] at held
  have inside := Sparse.valueIn_isSome.mp (by rw [held]; rfl)
  exact ⟨inside, .of_set inside.1 rfl (Buffer.set_bytes _ _ _)⟩

theorem storeByte_eq_none {segments : List SparseSegment} {absolute : UInt64}
    {value : UInt8} :
    storeByte absolute value segments = none ↔
      FakeSession.memoryOf segments absolute.toNat = none := by
  rw [FakeSession.memoryOf, Sparse.lookup, List.findSome?_eq_none_iff]
  induction segments with
  | nil => simp [storeByte]
  | cons segment rest induction =>
      rw [storeByte, List.forall_mem_cons, ← induction,
        ← SparseSegment.withByte_eq_none value]
      cases segment.withByte absolute value with
      | none => simp
      | some stored => simp

theorem storeByte_exists_iff {segments : List SparseSegment}
    {absolute : UInt64} (value : UInt8) :
    (∃ after, storeByte absolute value segments = some after) ↔
      ∃ segment ∈ segments, segment.lower ≤ absolute.toNat ∧
        absolute.toNat < segment.upper := by
  rw [← Option.isSome_iff_exists, ← not_iff_not,
    Option.not_isSome_iff_eq_none, storeByte_eq_none,
    ← Option.not_isSome_iff_eq_none, not_iff_not]
  exact Sparse.lookup_isSome

/-- Storing one byte lays it over the segments, of which only one holds the
address. -/
theorem storeByte_stored {segments after : List SparseSegment}
    {absolute : UInt64} {value : UInt8}
    (disjoint : segments.Pairwise fun left right =>
      ¬ Intervals.Meet SparseSegment.lower SparseSegment.upper left right)
    (changed : storeByte absolute value segments = some after) :
    Stored absolute.toNat [value] segments after := by
  induction segments generalizing after with
  | nil => contradiction
  | cons segment rest induction =>
      obtain ⟨apart, others⟩ := List.pairwise_cons.mp disjoint
      rw [storeByte] at changed
      cases here : segment.withByte absolute value with
      | some stored =>
          rw [here, Option.some.injEq] at changed
          subst changed
          obtain ⟨inside, overlaid⟩ := SparseSegment.withByte_overlaid here
          refine .cons overlaid (List.forall₂_same.mpr ?_)
          intro other member
          apply Sparse.Overlaid.of_apart
          intro address low high present
          rw [List.length_singleton] at high
          obtain rfl : absolute.toNat = address := by omega
          exact apart other member ⟨absolute.toNat, inside,
            Sparse.valueIn_isSome.mp present⟩
      | none =>
          rw [here, Option.map_eq_some_iff] at changed
          obtain ⟨storedRest, found, rfl⟩ := changed
          refine .cons (.of_apart ?_) (induction others found)
          intro address low high
          rw [List.length_singleton] at high
          obtain rfl : absolute.toNat = address := by omega
          rw [(SparseSegment.withByte_eq_none value).mp here]
          exact nofun

/-! A write moves no segment, so a map stays accepted under it. -/

theorem Stored.ends {start : Nat} {values : List UInt8}
    {before after : List SparseSegment}
    (stored : Stored start values before after) :
    before.map SparseSegment.ends = after.map SparseSegment.ends := by
  rw [← List.forall₂_eq_eq_eq, List.forall₂_map_left_iff,
    List.forall₂_map_right_iff]
  refine stored.imp ?_
  intro segment other overlaid
  exact (Prod.ext overlaid.lowerEq overlaid.upperEq).symm

theorem sparseRanges_eq (segments : List SparseSegment) :
    sparseRanges segments = (segments.map SparseSegment.ends).filter
      fun range => range.1 ≠ range.2 := by
  rw [sparseRanges, occupied, List.filter_map]
  congr 1
  apply List.filter_congr
  intro segment _
  simp [SparseSegment.ends]

theorem Stored.valid {start : Nat} {values : List UInt8}
    {before after : List SparseSegment}
    (stored : Stored start values before after)
    (valid : validateSegments before = .ok ()) :
    validateSegments after = .ok () := by
  unfold validateSegments at valid ⊢
  rwa [sparseRanges_eq, ← stored.ends, ← sparseRanges_eq]

theorem Stored.trans {start : Nat} {first second : List UInt8}
    {before middle after : List SparseSegment}
    (storedFirst : Stored start first before middle)
    (storedSecond : Stored (start + first.length) second middle after) :
    Stored start (first ++ second) before after := by
  induction storedFirst generalizing after with
  | nil =>
      cases storedSecond
      exact .nil
  | cons overlaid rest induction =>
      cases storedSecond with
      | cons overlaidNext restNext =>
          exact .cons (overlaid.trans overlaidNext) (induction restNext)

theorem Stored.refl (start : Nat) (segments : List SparseSegment) :
    Stored start [] segments segments :=
  List.forall₂_same.mpr fun _ _ => .refl

/-- An address at which a byte can be stored. -/
structure Writable (segments : List SparseSegment) (faults : List UInt64)
    (address : Nat) : Prop where
  addressable : address < 2 ^ 64
  held : ∃ segment ∈ segments, segment.lower ≤ address ∧
    address < segment.upper
  faultless : ∀ fault ∈ faults, fault.toNat ≠ address

theorem held_iff_ends {segments : List SparseSegment} {address : Nat} :
    (∃ segment ∈ segments, segment.lower ≤ address ∧
        address < segment.upper) ↔
      ∃ range ∈ segments.map SparseSegment.ends,
        range.1 ≤ address ∧ address < range.2 := by
  simp only [List.mem_map, exists_exists_and_eq_and]
  rfl

theorem Stored.writable_iff {start : Nat} {values : List UInt8}
    {before after : List SparseSegment}
    (stored : Stored start values before after) {faults : List UInt64}
    {address : Nat} :
    Writable after faults address ↔ Writable before faults address := by
  constructor
  · intro writable
    refine ⟨writable.addressable, ?_, writable.faultless⟩
    rw [held_iff_ends, stored.ends, ← held_iff_ends]
    exact writable.held
  · intro writable
    refine ⟨writable.addressable, ?_, writable.faultless⟩
    rw [held_iff_ends, ← stored.ends, ← held_iff_ends]
    exact writable.held

/-! Writing. One byte is stored where its address is writable, and the loop
stores the bytes before the first that is not. -/

namespace WritableSession

variable {session : WritableSession} {address : Gpa} {dataLen index : Nat}
  {segments after : List SparseSegment}

theorem storeSlot_eq_ok {value : UInt8} :
    session.storeSlot address dataLen index value segments = .ok after ↔
      ∃ absolute : UInt64, absolute.toNat = address.raw.toNat + index ∧
        absolute ∉ session.writeFaults ∧
        storeByte absolute value segments = some after := by
  unfold storeSlot
  simp only [bind_eq_ok, okOr_eq_ok, tryFrom_eq_some, checkedAdd_eq_some,
    rejectIf_eq_ok, exists_const, unsigned_toNat_uint64]
  constructor
  · intro given
    obtain ⟨word, rfl, absolute, sum, faultless, stored⟩ := given
    exact ⟨absolute, sum, faultless, stored⟩
  · intro given
    obtain ⟨absolute, sum, faultless, stored⟩ := given
    have below := absolute.toNat_lt
    refine ⟨UInt64.ofNat index, ?_, absolute, ?_, faultless, stored⟩
    · exact UInt64.toNat_ofNat_of_lt' (by unfold UInt64.size; omega)
    · rw [UInt64.toNat_ofNat_of_lt' (by unfold UInt64.size; omega)]
      exact sum

theorem storeSlot_stored {value : UInt8}
    (valid : validateSegments segments = .ok ())
    (succeeded : session.storeSlot address dataLen index value segments =
      .ok after) :
    Stored (address.raw.toNat + index) [value] segments after := by
  obtain ⟨absolute, sum, _, stored⟩ := storeSlot_eq_ok.mp succeeded
  rw [← sum]
  exact storeByte_stored (segments_disjoint valid) stored

theorem storeSlot_exists_iff (value : UInt8) :
    (∃ after, session.storeSlot address dataLen index value segments =
        .ok after) ↔
      Writable segments session.writeFaults (address.raw.toNat + index) := by
  simp only [storeSlot_eq_ok]
  constructor
  · intro given
    obtain ⟨after, absolute, sum, faultless, stored⟩ := given
    rw [← sum]
    refine ⟨absolute.toNat_lt,
      (storeByte_exists_iff value).mp ⟨after, stored⟩, ?_⟩
    intro fault member same
    rw [UInt64.toNat_inj.mp same] at member
    exact faultless member
  · intro writable
    have sum : (UInt64.ofNat (address.raw.toNat + index)).toNat =
        address.raw.toNat + index :=
      UInt64.toNat_ofNat_of_lt' writable.addressable
    have held := writable.held
    rw [← sum, ← storeByte_exists_iff value] at held
    obtain ⟨after, stored⟩ := held
    refine ⟨after, _, sum, ?_, stored⟩
    intro member
    exact writable.faultless _ member sum

/-- The loop stored the values before the first address that is not writable,
and failed exactly where there is one. -/
structure StoredPrefix (faults : List UInt64) (start : Nat)
    (data : List UInt8) (before : List SparseSegment)
    (outcome : List SparseSegment × Result Unit) (count : Nat) : Prop where
  within : count ≤ data.length
  writable : ∀ index < count, Writable before faults (start + index)
  stored : Stored start (data.take count) before outcome.1
  complete : outcome.2 = .ok () ↔ count = data.length
  stopped : count < data.length → ¬ Writable before faults (start + count)

theorem storeSlots_storedPrefix (valid : validateSegments segments = .ok ())
    (index : Nat) (data : List UInt8) :
    ∃ count, StoredPrefix session.writeFaults (address.raw.toNat + index)
      data segments
      (session.storeSlots address dataLen index data segments) count := by
  induction data generalizing index segments with
  | nil =>
      exact ⟨0, Nat.le_refl 0, nofun, .refl _ _, by simp [storeSlots], nofun⟩
  | cons value rest induction =>
      rw [storeSlots]
      cases outcome : session.storeSlot address dataLen index value
          segments with
      | error error =>
          refine ⟨0, Nat.zero_le _, nofun, .refl _ _, ?_, ?_⟩
          · simp
          · intro _ writable
            obtain ⟨after, succeeded⟩ :=
              (storeSlot_exists_iff value).mpr writable
            rw [outcome] at succeeded
            contradiction
      | ok middle =>
          have stored := storeSlot_stored valid outcome
          have writable := (storeSlot_exists_iff value).mp ⟨middle, outcome⟩
          obtain ⟨count, others⟩ := induction (stored.valid valid) (index + 1)
          refine ⟨count + 1, Nat.succ_le_succ others.within, ?_, ?_, ?_, ?_⟩
          · intro offset below
            cases offset with
            | zero => exact writable
            | succ offset =>
                have later := stored.writable_iff.mp
                  (others.writable offset (by omega))
                rwa [← Nat.add_assoc, Nat.add_right_comm] at later
          · rw [List.take_succ_cons]
            exact stored.trans others.stored
          · rw [List.length_cons, Nat.succ_inj]
            exact others.complete
          · intro below writable
            refine others.stopped (by simpa using below)
              (stored.writable_iff.mpr ?_)
            rwa [← Nat.add_assoc, Nat.add_right_comm] at writable

theorem memoryWrite_eq_ok {writer : WritableSession} :
    session.memoryWrite = .ok writer ↔ session = writer ∧
      session.capabilities.containsCapability .memoryWrite := by
  unfold memoryWrite
  split
  · rename_i permitted
    simp [permitted]
  · rename_i refused
    simp [refused]

theorem write_storedPrefix (valid : validateSegments session.segments = .ok ())
    (permitted : session.capabilities.containsCapability .memoryWrite)
    (address : Gpa) (data : List UInt8) :
    ∃ count, StoredPrefix session.writeFaults address.raw.toNat data
      session.segments (session.write address data) count := by
  have allowed : session.require .memoryWrite = .ok () := if_pos permitted
  unfold write
  rw [allowed]
  exact storeSlots_storedPrefix valid 0 data

namespace StoredPrefix

variable {faults : List UInt64} {start : Nat} {data : List UInt8}
  {outcome : List SparseSegment × Result Unit} {count : Nat}

theorem ok_iff
    (stores : StoredPrefix faults start data segments outcome count) :
    outcome.2 = .ok () ↔
      ∀ index < data.length, Writable segments faults (start + index) := by
  rw [stores.complete]
  constructor
  · intro whole
    rw [← whole]
    exact stores.writable
  · intro writable
    by_contra partly
    have below : count < data.length :=
      Nat.lt_of_le_of_ne stores.within partly
    exact stores.stopped below (writable count below)

theorem isLeast (stores : StoredPrefix faults start data segments outcome count)
    (failed : outcome.2 ≠ .ok ()) :
    IsLeast {index | index < data.length ∧
      ¬ Writable segments faults (start + index)} count := by
  have below : count < data.length := by
    refine Nat.lt_of_le_of_ne stores.within ?_
    intro whole
    exact failed (stores.complete.mpr whole)
  refine ⟨⟨below, stores.stopped below⟩, ?_⟩
  intro index violates
  by_contra earlier
  exact violates.2 (stores.writable index (Nat.lt_of_not_le earlier))

end StoredPrefix

end WritableSession

/-! Reading back. Faults outside a request do not touch it, and inside the range
of a write the memory holds what was written. -/

namespace FakeSession

variable {segments : List SparseSegment} {faults : List UInt64}
  {address : Gpa} {bufferLen : Nat}

theorem readSlot_without_faults {index : Nat}
    (clear : ∀ fault ∈ faults, fault.toNat ≠ address.raw.toNat + index) :
    readSlot ⟨segments, faults⟩ address bufferLen index =
      readSlot ⟨segments, []⟩ address bufferLen index := by
  unfold readSlot
  apply bind_congr_ok
  intro word converted
  rw [okOr_eq_ok, tryFrom_eq_some] at converted
  apply bind_congr_ok
  intro absolute added
  rw [okOr_eq_ok, checkedAdd_eq_some, converted] at added
  have absent : absolute ∉ faults := by
    intro member
    exact clear absolute member added
  rw [rejectIf_neg absent, rejectIf_neg List.not_mem_nil]

theorem readSlots_without_faults (index : Nat) (slots : List UInt8)
    (clear : ∀ fault ∈ faults, fault.toNat < address.raw.toNat + index ∨
      address.raw.toNat + index + slots.length ≤ fault.toNat) :
    readSlots ⟨segments, faults⟩ address bufferLen index slots =
      readSlots ⟨segments, []⟩ address bufferLen index slots := by
  induction slots generalizing index with
  | nil => rfl
  | cons slot rest induction =>
      rw [List.length_cons] at clear
      have here : ∀ fault ∈ faults,
          fault.toNat ≠ address.raw.toNat + index := by
        intro fault member
        have apart := clear fault member
        omega
      rw [readSlots, readSlots, readSlot_without_faults here,
        induction (index + 1)]
      intro fault member
      have apart := clear fault member
      omega

end FakeSession

theorem Stored.read {start : Nat} {values : List UInt8}
    {before after : List SparseSegment}
    (stored : Stored start values before after)
    (present : ∀ index < values.length, ∃ segment ∈ before,
      segment.lower ≤ start + index ∧ start + index < segment.upper) :
    Sparse.read (FakeSession.memoryOf after) start values.length =
      some values := by
  rw [← Sparse.read_overlay start values (FakeSession.memoryOf before)]
  apply Sparse.read_congr
  intro address low high
  refine Sparse.lookup_overlaid stored (Sparse.lookup_isSome.mpr ?_)
  have inside := present (address - start) (by omega)
  rwa [Nat.add_sub_cancel' low] at inside

/-- A write through the write access of a session succeeds where each of its
addresses is writable, and is then read back. Elsewhere it stores the values
before the first address that is not. -/
theorem sparse_write_exact (session : WritableSession)
    (valid : validateSegments session.segments = .ok ())
    {writer : WritableSession} (access : session.memoryWrite = .ok writer)
    (address : Gpa) (data : List UInt8) :
    ((writer.write address data).2 = .ok () ↔ ∀ index < data.length,
      Writable session.segments session.writeFaults
        (address.raw.toNat + index)) ∧
    ((writer.write address data).2 = .ok () →
      Stored address.raw.toNat data session.segments
        (writer.write address data).1 ∧
      ∀ (readFaults : List UInt64) (buffer : List UInt8),
        (∀ fault ∈ readFaults, fault.toNat < address.raw.toNat ∨
          address.raw.toNat + data.length ≤ fault.toNat) →
        buffer.length = data.length →
        FakeSession.readSparseInto ⟨(writer.write address data).1, readFaults⟩
          address buffer = (data, .ok ())) ∧
    (∀ error, (writer.write address data).2 = .error error → ∃ count,
      IsLeast {index | index < data.length ∧
        ¬ Writable session.segments session.writeFaults
          (address.raw.toNat + index)} count ∧
      Stored address.raw.toNat (data.take count) session.segments
        (writer.write address data).1) := by
  obtain ⟨rfl, permitted⟩ := WritableSession.memoryWrite_eq_ok.mp access
  obtain ⟨count, stores⟩ := WritableSession.write_storedPrefix valid permitted
    address data
  refine ⟨stores.ok_iff, ?_, ?_⟩
  · intro succeeded
    have stored : Stored address.raw.toNat data session.segments
        (session.write address data).1 := by
      have whole := stores.stored
      rwa [stores.complete.mp succeeded, List.take_length] at whole
    refine ⟨stored, ?_⟩
    intro readFaults buffer clear lengths
    have writable := stores.ok_iff.mp succeeded
    have found := stored.read fun index below => (writable index below).held
    rw [FakeSession.readSparseInto, FakeSession.readSlots_without_faults 0
      buffer (by rw [lengths]; exact clear)]
    rw [← lengths] at found
    exact (FakeSession.readSparseInto_eq_ok (stored.valid valid)).mpr found
  · intro error failed
    refine ⟨count, stores.isLeast ?_, stores.stored⟩
    intro succeeded
    rw [failed] at succeeded
    contradiction

theorem lowerBytes_bounded : ([1, 2] : List UInt8).length < 2 ^ 63 := by decide

theorem upperBytes_bounded : ([3, 4] : List UInt8).length < 2 ^ 63 := by decide

/-- Two segments that touch, with a write fault at the end of the second. -/
def faultySession : WritableSession where
  segments := [⟨⟨0x1002⟩, ⟨[3, 4], upperBytes_bounded⟩⟩,
    ⟨⟨0x1000⟩, ⟨[1, 2], lowerBytes_bounded⟩⟩]
  readFaults := [0x1003]
  provider := "fake"
  capabilities := .fromCaps [.memoryRead, .memoryWrite]
  writeFaults := [0x1003]

theorem sparse_write_exact_before_fault :
    validateSegments faultySession.segments = .ok () ∧
    faultySession.memoryWrite = .ok faultySession ∧
    (faultySession.write ⟨0x1000⟩ [9, 8, 7]).2 = .ok () ∧
    FakeSession.readSparseInto
      ⟨(faultySession.write ⟨0x1000⟩ [9, 8, 7]).1, [0x1003]⟩ ⟨0x1000⟩
        [0, 0, 0] = ([9, 8, 7], .ok ()) ∧
    (faultySession.write ⟨0x1000⟩ [9, 8, 7, 6]).2 =
      .error (.backend "injected fake write fault at 0x1003") ∧
    Stored 0x1000 [9, 8, 7] faultySession.segments
      (faultySession.write ⟨0x1000⟩ [9, 8, 7, 6]).1 := by
  have ranges : sparseRanges faultySession.segments =
      [(0x1002, 0x1004), (0x1000, 0x1002)] := by
    decide +kernel
  have valid : validateSegments faultySession.segments = .ok () := by
    rw [validateSegments_eq_ok, ranges]
    simp [List.mergeSort, List.MergeSort.Internal.splitInTwo, rangeOrder]
  have access : faultySession.memoryWrite = .ok faultySession := by decide
  have succeeded : (faultySession.write ⟨0x1000⟩ [9, 8, 7]).2 = .ok () := by
    decide +kernel
  have failed : (faultySession.write ⟨0x1000⟩ [9, 8, 7, 6]).2 =
      .error (.backend "injected fake write fault at 0x1003") := by
    decide +kernel
  have exactly := sparse_write_exact faultySession valid access ⟨0x1000⟩
  obtain ⟨count, least, stored⟩ := (exactly [9, 8, 7, 6]).2.2 _ failed
  have third : count = 3 := by
    have within : count < 4 := least.1.1
    by_contra other
    exact least.1.2 ((exactly [9, 8, 7]).1.mp succeeded count
      (Nat.lt_of_le_of_ne (Nat.le_of_lt_succ within) other))
  rw [third] at stored
  refine ⟨valid, access, succeeded, ?_, failed, stored⟩
  exact ((exactly [9, 8, 7]).2.1 succeeded).2 [0x1003] [0, 0, 0]
    (List.forall_mem_singleton.mpr (by decide)) rfl

end LibVmi.Testkit
