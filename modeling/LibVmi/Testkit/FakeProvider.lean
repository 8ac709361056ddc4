import LibVmi.Artifact.ReadInto

namespace LibVmi.Testkit

open Data Intervals Artifact

/-! The memory of the fake provider. Its segments stay in the order in which the
caller gave them, and every byte of a request is looked up on its own. -/

structure SparseSegment where
  start : Gpa
  bytes : Buffer
  deriving DecidableEq

namespace SparseSegment

def lower (segment : SparseSegment) : Nat := segment.start.raw.toNat

/-- The two ends in widened arithmetic, where their sum does not saturate. -/
def ends (segment : SparseSegment) : Nat × Nat :=
  (segment.lower, segment.lower + segment.bytes.length)

def upper (segment : SparseSegment) : Nat := segment.ends.2

/-- The byte of the segment at an absolute address. -/
def byteAt (segment : SparseSegment) (absolute : UInt64) : Option UInt8 := do
  let offset ← checkedSub absolute segment.start.raw
  let offset ← some offset.toNat |>.filter fun offset =>
    offset < segment.bytes.length
  segment.bytes.bytes[offset]?

end SparseSegment

/-- The order of pairs, first by start and then by end. -/
def rangeOrder (left right : Nat × Nat) : Bool :=
  left.1 < right.1 || left.1 == right.1 && left.2 ≤ right.2

def occupied (segments : List SparseSegment) : List SparseSegment :=
  segments.filter fun segment => segment.bytes.length ≠ 0

def sparseRanges (segments : List SparseSegment) : List (Nat × Nat) :=
  (occupied segments).map SparseSegment.ends

def rejectOverlap : List (Nat × Nat) → Result Unit
  | previous :: current :: rest => do
      rejectIf (current.1 < previous.2)
        (.backend ("fake sparse segments overlap at " ++ hex current.1))
      rejectOverlap (current :: rest)
  | _ => .ok ()

def validateSegments (segments : List SparseSegment) : Result Unit :=
  let ranges := sparseRanges segments
  match ranges.find? fun range => 2 ^ 64 < range.2 with
  | some range =>
      .error (.backend ("fake sparse segment at " ++ hex range.1 ++
        " exceeds the physical address space"))
  | none => rejectOverlap (ranges.mergeSort rangeOrder)

/-- What a session keeps for its reads. -/
structure FakeSession where
  segments : List SparseSegment
  readFaults : List UInt64
  deriving DecidableEq

namespace FakeSession

def readSlot (self : FakeSession) (address : Gpa) (bufferLen index : Nat) :
    Result UInt8 := do
  let index ← okOr (tryFrom index) (.readFailed address.raw bufferLen)
  let absolute ← okOr (checkedAdd address.raw index)
    (.readFailed address.raw bufferLen)
  rejectIf (absolute ∈ self.readFaults)
    (.backend ("injected fake read fault at " ++ hex absolute.toNat))
  okOr (self.segments.findSome? fun segment => segment.byteAt absolute)
    (.readFailed absolute 1)

/-- The slots from `index` on. A slot that fails ends the loop, and the slots
before it keep what was read. -/
def readSlots (self : FakeSession) (address : Gpa) (bufferLen : Nat) :
    (index : Nat) → List UInt8 → List UInt8 × Result Unit
  | _, [] => ([], .ok ())
  | index, slot :: rest =>
      match self.readSlot address bufferLen index with
      | .error error => (slot :: rest, .error error)
      | .ok byte =>
          let (filled, result) :=
            readSlots self address bufferLen (index + 1) rest
          (byte :: filled, result)

def readSparseInto (self : FakeSession) (address : Gpa)
    (buffer : List UInt8) : List UInt8 × Result Unit :=
  self.readSlots address buffer.length 0 buffer

end FakeSession

/-! An accepted map. Empty segments are left out of the comparison, and the
others are apart. -/

theorem rejectOverlap_eq_ok {ranges : List (Nat × Nat)} {result : Unit} :
    rejectOverlap ranges = .ok result ↔
      ranges.IsChain fun previous current => previous.2 ≤ current.1 := by
  induction ranges with
  | nil => simp [rejectOverlap]
  | cons previous rest induction =>
      cases rest with
      | nil => simp [rejectOverlap]
      | cons current rest =>
          rw [rejectOverlap, bind_eq_ok, List.isChain_cons_cons, ← induction]
          simp only [rejectIf_eq_ok, Nat.not_lt, exists_and_left, exists_const]

theorem validateSegments_eq_ok {segments : List SparseSegment} :
    validateSegments segments = .ok () ↔
      (∀ range ∈ sparseRanges segments, range.2 ≤ 2 ^ 64) ∧
        ((sparseRanges segments).mergeSort rangeOrder).IsChain
          fun previous current => previous.2 ≤ current.1 := by
  unfold validateSegments
  simp only
  cases found : (sparseRanges segments).find? fun range =>
      decide (2 ^ 64 < range.2) with
  | some range =>
      have beyond : 2 ^ 64 < range.2 := by
        simpa using List.find?_some found
      have member := List.mem_of_find?_eq_some found
      simp only [reduceCtorEq, false_iff]
      intro given
      have within := given.1 range member
      omega
  | none =>
      simp only [rejectOverlap_eq_ok]
      have within : ∀ range ∈ sparseRanges segments, range.2 ≤ 2 ^ 64 := by
        intro range member
        have small := List.find?_eq_none.mp found range member
        simpa using small
      constructor
      · intro chain
        exact ⟨within, chain⟩
      · intro given
        exact given.2

theorem sorted_ranges (ranges : List (Nat × Nat)) :
    (ranges.mergeSort rangeOrder).Pairwise fun left right =>
      left.1 ≤ right.1 := by
  have sorted : (ranges.mergeSort rangeOrder).Pairwise fun left right =>
      rangeOrder left right = true := by
    apply List.pairwise_mergeSort
    · intro first second third
      simp only [rangeOrder, Bool.or_eq_true, Bool.and_eq_true,
        decide_eq_true_eq, beq_iff_eq]
      omega
    · intro first second
      simp only [rangeOrder, Bool.or_eq_true, Bool.and_eq_true,
        decide_eq_true_eq, beq_iff_eq]
      omega
  refine sorted.imp ?_
  intro left right ordered
  simp only [rangeOrder, Bool.or_eq_true, Bool.and_eq_true,
    decide_eq_true_eq, beq_iff_eq] at ordered
  omega

theorem occupied_nonempty {segments : List SparseSegment}
    {segment : SparseSegment} (member : segment ∈ occupied segments) :
    segment.lower < segment.upper := by
  have nonempty := (List.mem_filter.mp member).2
  simp only [ne_eq, decide_not, Bool.not_eq_eq_eq_not, Bool.not_true,
    decide_eq_false_iff_not] at nonempty
  simp only [SparseSegment.upper, SparseSegment.ends]
  omega

theorem occupied_apart {segments : List SparseSegment}
    (valid : validateSegments segments = .ok ()) :
    (occupied segments).Pairwise
      (Intervals.Apart SparseSegment.lower SparseSegment.upper) := by
  obtain ⟨_, chain⟩ := validateSegments_eq_ok.mp valid
  have nonempty : ∀ range ∈ (sparseRanges segments).mergeSort rangeOrder,
      range.1 < range.2 := by
    intro range member
    rw [List.mem_mergeSort] at member
    obtain ⟨segment, inside, rfl⟩ := List.mem_map.mp member
    exact occupied_nonempty inside
  have before : ((sparseRanges segments).mergeSort rangeOrder).Pairwise
      (Before Prod.fst Prod.snd) := by
    apply pairwise_before nonempty (sorted_ranges _)
    refine chain.imp ?_
    intro previous current ordered overlap
    exact absurd overlap.2 (Nat.not_lt.mpr ordered)
  have apart := pairwise_apart_of_perm
    (List.mergeSort_perm (sparseRanges segments) rangeOrder)
    (apart_of_before before)
  rw [sparseRanges, List.pairwise_map] at apart
  exact apart

theorem occupied_within {segments : List SparseSegment}
    (valid : validateSegments segments = .ok ()) {segment : SparseSegment}
    (member : segment ∈ occupied segments) : segment.upper ≤ 2 ^ 64 :=
  (validateSegments_eq_ok.mp valid).1 segment.ends
    (List.mem_map_of_mem member)

/-- Segments of an accepted map meet nowhere, the empty ones included. -/
theorem segments_disjoint {segments : List SparseSegment}
    (valid : validateSegments segments = .ok ()) :
    segments.Pairwise fun left right =>
      ¬ Meet SparseSegment.lower SparseSegment.upper left right := by
  have apart := occupied_apart valid
  rw [occupied, List.pairwise_filter] at apart
  refine apart.imp ?_
  intro left right separate meet
  obtain ⟨point, ⟨leftLower, leftUpper⟩, rightLower, rightUpper⟩ := meet
  simp only [SparseSegment.upper, SparseSegment.ends] at leftUpper rightUpper
  refine (separate ?_ ?_).not_overlap ?_
  · simp only [ne_eq, decide_not, Bool.not_eq_eq_eq_not, Bool.not_true,
      decide_eq_false_iff_not]
    omega
  · simp only [ne_eq, decide_not, Bool.not_eq_eq_eq_not, Bool.not_true,
      decide_eq_false_iff_not]
    omega
  · simp only [Overlap, SparseSegment.upper, SparseSegment.ends]
    omega

/-! Reading. The loop over the slots reads the memory whose parts are the
segments. -/

namespace FakeSession

def memoryOf (segments : List SparseSegment) : Nat → Option UInt8 :=
  Sparse.lookup SparseSegment.lower (fun segment => segment.bytes.bytes)
    segments

theorem byteAt_eq (segment : SparseSegment) (absolute : UInt64) :
    segment.byteAt absolute = Sparse.valueIn SparseSegment.lower
      (fun segment => segment.bytes.bytes) segment absolute.toNat := by
  unfold SparseSegment.byteAt Sparse.valueIn
  by_cases ordered : segment.lower ≤ absolute.toNat
  · have bound := absolute.toNat_lt
    have subtracted : checkedSub absolute segment.start.raw =
        some (UInt64.ofNat (absolute.toNat - segment.lower)) :=
      if_pos ordered
    have offsetEq : (UInt64.ofNat (absolute.toNat - segment.lower)).toNat =
        absolute.toNat - segment.lower :=
      UInt64.toNat_ofNat_of_lt' (by unfold UInt64.size; omega)
    rw [if_pos ordered, subtracted, Option.bind_eq_bind, Option.bind_some,
      offsetEq, Option.filter_some]
    by_cases within : absolute.toNat - segment.lower < segment.bytes.length
    · simp [within]
    · have beyond : segment.bytes.bytes.length ≤
          absolute.toNat - segment.lower :=
        Nat.le_of_not_lt within
      simp [within, beyond]
  · have failed : checkedSub absolute segment.start.raw = none :=
      if_neg ordered
    rw [if_neg ordered, failed]
    rfl

theorem memoryOf_below {segments : List SparseSegment}
    (valid : validateSegments segments = .ok ()) {point : Nat}
    (present : (memoryOf segments point).isSome) : point < 2 ^ 64 := by
  obtain ⟨segment, member, after, before⟩ := Sparse.lookup_isSome.mp present
  have nonempty : segment ∈ occupied segments := by
    refine List.mem_filter.mpr ⟨member, ?_⟩
    simp only [ne_eq, decide_not, Bool.not_eq_eq_eq_not, Bool.not_true,
      decide_eq_false_iff_not]
    simp only [Sparse.upper] at before
    change ¬ segment.bytes.bytes.length = 0
    omega
  exact Nat.lt_of_lt_of_le before (occupied_within valid nonempty)

/-- Without faults a slot is filled with what the memory holds there. -/
theorem readSlot_eq_ok {segments : List SparseSegment}
    (valid : validateSegments segments = .ok ()) {address : Gpa}
    {bufferLen index : Nat} {byte : UInt8} :
    readSlot ⟨segments, []⟩ address bufferLen index = .ok byte ↔
      memoryOf segments (address.raw.toNat + index) = some byte := by
  unfold readSlot
  simp only [bind_eq_ok, okOr_eq_ok, tryFrom_eq_some, checkedAdd_eq_some,
    rejectIf_eq_ok, List.not_mem_nil, not_false_eq_true, true_and,
    exists_const, byteAt_eq, unsigned_toNat_uint64]
  constructor
  · intro given
    obtain ⟨word, rfl, absolute, sum, found⟩ := given
    rwa [← sum]
  · intro found
    have below := memoryOf_below valid (by rw [found]; rfl)
    refine ⟨UInt64.ofNat index, ?_,
      UInt64.ofNat (address.raw.toNat + index), ?_, ?_⟩
    · exact UInt64.toNat_ofNat_of_lt' (by unfold UInt64.size; omega)
    · rw [UInt64.toNat_ofNat_of_lt' (by unfold UInt64.size; omega),
        UInt64.toNat_ofNat_of_lt' (by unfold UInt64.size; omega)]
    · rw [UInt64.toNat_ofNat_of_lt' (by unfold UInt64.size; omega)]
      exact found

theorem readSlots_of_read {segments : List SparseSegment}
    (valid : validateSegments segments = .ok ()) {address : Gpa}
    {bufferLen index : Nat} {slots values : List UInt8}
    (found : Sparse.read (memoryOf segments) (address.raw.toNat + index)
      slots.length = some values) :
    readSlots ⟨segments, []⟩ address bufferLen index slots =
      (values, .ok ()) := by
  induction slots generalizing index values with
  | nil =>
      obtain rfl : [] = values := Option.some.inj found
      rfl
  | cons slot rest induction =>
      cases values with
      | nil => exact absurd found Sparse.read_succ_ne_nil
      | cons byte others =>
          obtain ⟨here, later⟩ := Sparse.read_succ_eq_some.mp found
          rw [readSlots, (readSlot_eq_ok valid).mpr here]
          simp only
          rw [induction later]

theorem read_of_readSlots {segments : List SparseSegment}
    (valid : validateSegments segments = .ok ()) {address : Gpa}
    {bufferLen : Nat} (index : Nat) {slots : List UInt8}
    (succeeded : (readSlots ⟨segments, []⟩ address bufferLen index slots).2 =
      .ok ()) :
    ∃ values, Sparse.read (memoryOf segments) (address.raw.toNat + index)
      slots.length = some values := by
  induction slots generalizing index with
  | nil => exact ⟨[], rfl⟩
  | cons slot rest induction =>
      rw [readSlots] at succeeded
      cases outcome : readSlot ⟨segments, []⟩ address bufferLen index with
      | error error =>
          rw [outcome] at succeeded
          contradiction
      | ok byte =>
          rw [outcome] at succeeded
          obtain ⟨others, later⟩ := induction (index + 1) succeeded
          exact ⟨byte :: others, Sparse.read_succ_eq_some.mpr
            ⟨(readSlot_eq_ok valid).mp outcome, later⟩⟩

/-- Reading succeeds where the memory holds the whole request, and then fills
the buffer with it. -/
theorem readSparseInto_eq_ok {segments : List SparseSegment}
    (valid : validateSegments segments = .ok ()) {address : Gpa}
    {buffer values : List UInt8} :
    readSparseInto ⟨segments, []⟩ address buffer = (values, .ok ()) ↔
      Sparse.read (memoryOf segments) address.raw.toNat buffer.length =
        some values := by
  constructor
  · intro read
    obtain ⟨others, found⟩ := read_of_readSlots valid 0
      (show (readSparseInto ⟨segments, []⟩ address buffer).2 = .ok () by
        rw [read])
    rw [readSparseInto, readSlots_of_read valid found] at read
    obtain ⟨rfl, _⟩ := Prod.mk.inj read
    exact found
  · intro found
    exact readSlots_of_read valid found

end FakeSession

/-! The same segments as a snapshot bundle. -/

def SparseSegment.toSnapshot (segment : SparseSegment) : SnapshotSegment :=
  .new segment.start segment.bytes

/-- The bundle of the same segments, with the empty ones dropped and the rest
sorted by start. -/
def bundleOf (provenance : ArtifactProvenance)
    (segments : List SparseSegment) : SnapshotBundle :=
  ⟨provenance, sortByStart ((occupied segments).map SparseSegment.toSnapshot)⟩

theorem bundleOf_sorted (provenance : ArtifactProvenance)
    (segments : List SparseSegment) :
    SortedByStart (bundleOf provenance segments).segments :=
  sortByStart_sorted _

theorem bundleOf_apart {segments : List SparseSegment}
    (valid : validateSegments segments = .ok ())
    (provenance : ArtifactProvenance) :
    (bundleOf provenance segments).segments.Pairwise Artifact.Apart := by
  apply pairwise_apart_of_perm (sortByStart_perm _).symm
  rw [List.pairwise_map]
  refine (occupied_apart valid).imp ?_
  intro left right separate
  simpa [Intervals.Apart, Before, SparseSegment.toSnapshot,
    SparseSegment.lower, SparseSegment.upper, SparseSegment.ends]
    using separate

theorem mem_bundleOf {provenance : ArtifactProvenance}
    {segments : List SparseSegment} {segment : SnapshotSegment}
    (nonempty : 0 < segment.data.length) :
    segment ∈ segments.map SparseSegment.toSnapshot ↔
      segment ∈ (bundleOf provenance segments).segments := by
  simp only [bundleOf, mem_sortByStart, List.mem_map, occupied,
    List.mem_filter]
  constructor
  · intro given
    obtain ⟨part, member, rfl⟩ := given
    refine ⟨part, ⟨member, ?_⟩, rfl⟩
    have positive : 0 < part.bytes.length := nonempty
    simp only [ne_eq, decide_not, Bool.not_eq_eq_eq_not, Bool.not_true,
      decide_eq_false_iff_not]
    omega
  · intro given
    obtain ⟨part, member, rfl⟩ := given
    exact ⟨part, member.1, rfl⟩

/-- The two hold the same bytes. -/
theorem byteAt_bundleOf {segments : List SparseSegment}
    (valid : validateSegments segments = .ok ())
    (provenance : ArtifactProvenance) :
    SnapshotBundle.byteAt (bundleOf provenance segments).segments =
      FakeSession.memoryOf segments := by
  funext point
  have whole : FakeSession.memoryOf segments point =
      SnapshotBundle.byteAt (segments.map SparseSegment.toSnapshot) point := by
    rw [SnapshotBundle.byteAt, Sparse.lookup_map]
    rfl
  rw [whole]
  apply Sparse.lookup_eq_of_same_parts
  · refine (bundleOf_apart valid provenance).imp ?_
    intro left right separate meet
    rw [funext SnapshotBundle.sparse_upper] at meet
    exact separate.not_overlap meet.overlap
  · rw [List.pairwise_map]
    exact segments_disjoint valid
  · intro segment nonempty
    simp only [Sparse.upper] at nonempty
    exact (mem_bundleOf (show 0 < segment.data.bytes.length by omega)).symm

/-- What the fake session can read, the bundle covers. -/
theorem bundleOf_covers {segments : List SparseSegment}
    (valid : validateSegments segments = .ok ())
    (provenance : ArtifactProvenance) {start count : Nat}
    (readable : (Sparse.read (FakeSession.memoryOf segments) start
      count).isSome) :
    SnapshotBundle.Covers (bundleOf provenance segments).segments start
      count := by
  have present := Sparse.read_isSome.mp readable
  by_cases empty : count = 0
  · exact .inl empty
  · have last := FakeSession.memoryOf_below valid
      (present (start + count - 1) (by omega) (by omega))
    refine .inr ⟨by omega, fun point past within => ?_⟩
    apply SnapshotBundle.byteAt_isSome.mp
    rw [byteAt_bundleOf valid]
    exact present point past within

/-- For an accepted map the fake session and the bundle read the same
memory. -/
theorem readSparseInto_agrees (segments : List SparseSegment)
    (valid : validateSegments segments = .ok ())
    (provenance : ArtifactProvenance) (address : Gpa) (buffer : Buffer) :
    ((FakeSession.readSparseInto ⟨segments, []⟩ address buffer.bytes).2 =
        .ok () ↔
      ((bundleOf provenance segments).readInto address buffer.bytes).2 =
        .ok ()) ∧
    ((FakeSession.readSparseInto ⟨segments, []⟩ address buffer.bytes).2 =
        .ok () →
      (FakeSession.readSparseInto ⟨segments, []⟩ address buffer.bytes).1 =
        ((bundleOf provenance segments).readInto address buffer.bytes).1) := by
  have sorted := bundleOf_sorted provenance segments
  cases found : Sparse.read (FakeSession.memoryOf segments)
      address.raw.toNat buffer.bytes.length with
  | some values =>
      have covers := bundleOf_covers valid provenance (by rw [found]; rfl)
      obtain ⟨others, read, filled⟩ := SnapshotBundle.readInto_of_covers
        sorted buffer.length_lt_limit covers
      rw [byteAt_bundleOf valid, found, Option.some.injEq] at read
      rw [(FakeSession.readSparseInto_eq_ok valid).mpr found, filled, read]
      simp
  | none =>
      have failed : (FakeSession.readSparseInto ⟨segments, []⟩ address
          buffer.bytes).2 ≠ .ok () := by
        intro succeeded
        obtain ⟨values, read⟩ := FakeSession.read_of_readSlots valid 0
          succeeded
        rw [Nat.add_zero, found] at read
        contradiction
      have missing : ¬ SnapshotBundle.Covers
          (bundleOf provenance segments).segments address.raw.toNat
          buffer.bytes.length := by
        intro covers
        obtain ⟨values, read, _⟩ := SnapshotBundle.readInto_of_covers sorted
          buffer.length_lt_limit covers
        rw [byteAt_bundleOf valid, found] at read
        contradiction
      rw [SnapshotBundle.readInto_of_not_covers missing]
      exact ⟨⟨fun succeeded => absurd succeeded failed, nofun⟩,
        fun succeeded => absurd succeeded failed⟩

theorem firstBytes_bounded : ([1, 2] : List UInt8).length < 2 ^ 63 := by
  decide

theorem lastByte_bounded : ([3] : List UInt8).length < 2 ^ 63 := by decide

/-- Two adjacent segments in the wrong order with an empty one between them, up
to the end of the address space. -/
def unorderedSegments : List SparseSegment :=
  [⟨⟨0xffffffffffffffff⟩, ⟨[3], lastByte_bounded⟩⟩,
    ⟨⟨0xfffffffffffffffe⟩, .empty⟩,
    ⟨⟨0xfffffffffffffffd⟩, ⟨[1, 2], firstBytes_bounded⟩⟩]

theorem readSparseInto_agrees_unordered :
    validateSegments unorderedSegments = .ok () ∧
    (FakeSession.readSparseInto ⟨unorderedSegments, []⟩
      ⟨0xfffffffffffffffd⟩ [0, 0, 0]).2 = .ok () ∧
    ((bundleOf ⟨"fake", "segments"⟩ unorderedSegments).readInto
      ⟨0xfffffffffffffffd⟩ [0, 0, 0]).1 = [1, 2, 3] := by
  have ranges : sparseRanges unorderedSegments =
      [(0xffffffffffffffff, 2 ^ 64),
        (0xfffffffffffffffd, 0xffffffffffffffff)] := by
    decide
  have valid : validateSegments unorderedSegments = .ok () := by
    rw [validateSegments_eq_ok, ranges]
    simp [List.mergeSort, List.MergeSort.Internal.splitInTwo,
      rangeOrder]
  have agrees := readSparseInto_agrees unorderedSegments valid
    ⟨"fake", "segments"⟩ ⟨0xfffffffffffffffd⟩ ⟨[0, 0, 0], by decide⟩
  have filled : FakeSession.readSparseInto ⟨unorderedSegments, []⟩
      ⟨0xfffffffffffffffd⟩ [0, 0, 0] = ([1, 2, 3], .ok ()) := by decide
  refine ⟨valid, by rw [filled], ?_⟩
  rw [← agrees.2 (by rw [filled]), filled]

end LibVmi.Testkit
