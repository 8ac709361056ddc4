import LibVmi.Artifact.Bundle
import LibVmi.Artifact.Fields

namespace LibVmi.Artifact

open Data Intervals

/-! Little-endian ELF64 cores: the memory map is the `PT_LOAD` part of the
program header table. -/

structure ProgramHeader where
  fileOffset : UInt64
  physical : UInt64
  fileSize : UInt64
  memorySize : UInt64
  deriving DecidableEq, Repr

def elfMagic : List UInt8 := 0x7f :: ascii "ELF"

/-- A header of another type than `PT_LOAD` is read no further. -/
def programHeaderAt (data : Buffer) (programOffset entrySize index : UInt64) :
    Result (Option ProgramHeader) := do
  let distance ← okOr (checkedMul index entrySize)
    (.backend "ELF program table overflow")
  let position ← okOr (checkedAdd programOffset distance)
    (.backend "ELF program table overflow")
  let offset := position.toNat
  let kind ← readU32 data offset
  if kind ≠ 1 then
    .ok none
  else do
    let fileOffset ← readU64 data (← addOffset offset 8)
    let physical ← readU64 data (← addOffset offset 24)
    let fileSize ← readU64 data (← addOffset offset 32)
    let memorySize ← readU64 data (← addOffset offset 40)
    return some ⟨fileOffset, physical, fileSize, memorySize⟩

/-- The segment of one header, zero-filled past its file part, and the memory
decoded with it. -/
def loadSegment (data : Buffer) (maxMemorySize total : UInt64)
    (header : ProgramHeader) : Result (SnapshotSegment × UInt64) := do
  rejectIf (header.memorySize.toNat < header.fileSize.toNat)
    (.backend "ELF segment file size exceeds memory size")
  let total ← okOr (checkedAdd total header.memorySize)
    (.backend "ELF decoded memory size overflow")
  rejectIf (maxMemorySize.toNat < total.toNat)
    (.backend s!"ELF decoded memory exceeds {maxMemorySize} bytes")
  let fileStart := header.fileOffset.toNat
  let fileLength := header.fileSize.toNat
  let memoryLength := header.memorySize.toNat
  let fileEnd ← okOr (Usize.checkedAdd fileStart fileLength)
    (.backend "ELF segment range overflow")
  let sourceBytes ← okOr (data.get fileStart fileEnd)
    (.backend "ELF segment extends beyond artifact")
  let bytes ← okOr
    (Buffer.allocate (sourceBytes.bytes ++
      List.replicate (memoryLength - fileLength) 0))
    (.backend ("failed to allocate ELF segment: memory allocation failed " ++
      "because the computed capacity exceeded the collection's maximum"))
  rejectIf (memoryLength < fileLength)
    (.backend "ELF segment buffer is too small")
  return (.new ⟨header.physical⟩ bytes, total)

def loadSegments (data : Buffer) (programOffset entrySize
    maxMemorySize : UInt64) : List UInt64 → UInt64 →
      Result (List SnapshotSegment)
  | [], _ => .ok []
  | index :: rest, total => do
      match ← programHeaderAt data programOffset entrySize index with
      | none => loadSegments data programOffset entrySize maxMemorySize rest total
      | some header => do
          let (segment, total) ← loadSegment data maxMemorySize total header
          let segments ← loadSegments data programOffset entrySize
            maxMemorySize rest total
          return segment :: segments

def indices (count : UInt16) : List UInt64 :=
  (List.range count.toNat).map UInt64.ofNat

def fromElfWithLimits (source : String) (data : Buffer) (format : String)
    (maxMemorySize : UInt64) : Result SnapshotBundle := do
  rejectIf (maxMemorySize = 0)
    (.backend "maximum ELF decoded memory size must be non-zero")
  rejectIf (data.length < 64 ∨ ¬ elfMagic <+: data.bytes ∨
      data.bytes[4]? ≠ some 2 ∨ data.bytes[5]? ≠ some 1)
    (.backend "artifact is not little-endian ELF64")
  let programOffset ← readU64 data 32
  let entrySize ← readU16 data 54
  let entryCount ← readU16 data 56
  rejectIf (entrySize.toNat < 56)
    (.backend s!"ELF program header size {entrySize} is too small")
  let segments ← loadSegments data programOffset entrySize.toUInt64
    maxMemorySize (indices entryCount) 0
  rejectIf (segments = []) (.backend "ELF artifact contains no PT_LOAD segments")
  let segments ← arrange "ELF PT_LOAD physical ranges overlap" segments
  return ⟨⟨format, source⟩, segments⟩

def defaultMaxArtifactSize : UInt64 := 64 * 1024 * 1024 * 1024

def fromElfVmcore (source : String) (data : Buffer) : Result SnapshotBundle :=
  fromElfWithLimits source data "elf-vmcore" defaultMaxArtifactSize

def fromXenCore (source : String) (data : Buffer) : Result SnapshotBundle :=
  fromElfWithLimits source data "xen-core" defaultMaxArtifactSize

/-! The ranges that the table declares, apart from any check of them. -/

def ProgramHeader.bounds (header : ProgramHeader) : Nat × Nat :=
  (header.physical.toNat, header.physical.toNat + header.memorySize.toNat)

def headerAt? (data : Buffer) (programOffset entrySize index : UInt64) :
    Option ProgramHeader :=
  match programHeaderAt data programOffset entrySize index with
  | .ok header => header
  | .error _ => none

/-- The `PT_LOAD` headers of an artifact in table order. -/
def loadHeaders (data : Buffer) : List ProgramHeader :=
  match readU64 data 32, readU16 data 54, readU16 data 56 with
  | .ok programOffset, .ok entrySize, .ok entryCount =>
      (indices entryCount).filterMap
        (headerAt? data programOffset entrySize.toUInt64)
  | _, _, _ => []

theorem loadSegment_eq_ok {data : Buffer} {maxMemorySize total total' : UInt64}
    {header : ProgramHeader} {segment : SnapshotSegment} :
    loadSegment data maxMemorySize total header = .ok (segment, total') ↔
      header.fileSize.toNat ≤ header.memorySize.toNat ∧
      total'.toNat = total.toNat + header.memorySize.toNat ∧
      total'.toNat ≤ maxMemorySize.toNat ∧
      ∃ sourceBytes bytes : Buffer,
        slice data.bytes header.fileOffset.toNat
          (header.fileOffset.toNat + header.fileSize.toNat) =
            some sourceBytes.bytes ∧
        bytes.bytes = sourceBytes.bytes ++ List.replicate
          (header.memorySize.toNat - header.fileSize.toNat) 0 ∧
        segment = .new ⟨header.physical⟩ bytes := by
  have whole := data.length_lt_limit
  simp only [loadSegment, bind_eq_ok, okOr_eq_ok, rejectIf_eq_ok,
    Buffer.get_eq_some, Buffer.allocate_eq_some, Usize.checkedAdd_eq_some,
    checkedAdd_eq_some, unsigned_toNat_uint64, pure_eq_ok, Except.ok.injEq,
    Prod.mk.injEq, exists_and_left, exists_const, and_assoc, exists_eq_left,
    Nat.not_lt]
  constructor
  · intro given
    obtain ⟨ordered, _, totalEq, within, _, sourceBytes, taken, bytes, filled,
      _, rfl, rfl⟩ := given
    exact ⟨ordered, totalEq, within, sourceBytes, taken, bytes, filled, rfl⟩
  · intro given
    obtain ⟨ordered, totalEq, within, sourceBytes, taken, bytes, filled, rfl⟩
      := given
    have bounds := slice_length taken
    change _ ∧ _ ≤ data.length at bounds
    exact ⟨ordered, total', totalEq, within, by omega, sourceBytes, taken,
      bytes, filled, ordered, rfl, rfl⟩

theorem loadSegment_bounds {data : Buffer} {maxMemorySize total total' : UInt64}
    {header : ProgramHeader} {segment : SnapshotSegment}
    (loaded : loadSegment data maxMemorySize total header =
      .ok (segment, total')) :
    segment.bounds = header.bounds := by
  obtain ⟨ordered, _, _, sourceBytes, bytes, taken, filled, rfl⟩ :=
    loadSegment_eq_ok.mp loaded
  have taken := slice_length taken
  have length : bytes.length = header.memorySize.toNat := by
    rw [Buffer.length, filled, List.length_append, List.length_replicate]
    omega
  simp only [SnapshotSegment.bounds, ProgramHeader.bounds,
    SnapshotSegment.new_lower, SnapshotSegment.new_upper, length]

/-- The loop makes one segment a `PT_LOAD` header, in table order. -/
theorem loadSegments_bounds {data : Buffer}
    {programOffset entrySize maxMemorySize : UInt64} {table : List UInt64}
    {total : UInt64} {segments : List SnapshotSegment}
    (loaded : loadSegments data programOffset entrySize maxMemorySize table
      total = .ok segments) :
    segments.map SnapshotSegment.bounds =
      (table.filterMap (headerAt? data programOffset entrySize)).map
        ProgramHeader.bounds := by
  induction table generalizing total segments with
  | nil =>
      rw [loadSegments, Except.ok.injEq] at loaded
      subst loaded
      rfl
  | cons index rest induction =>
      rw [loadSegments] at loaded
      obtain ⟨header, read, loaded⟩ := bind_eq_ok.mp loaded
      have headerEq : headerAt? data programOffset entrySize index = header := by
        rw [headerAt?, read]
      cases header with
      | none =>
          rw [List.filterMap_cons_none headerEq]
          exact induction loaded
      | some header =>
          obtain ⟨⟨segment, total'⟩, segmentLoaded, loaded⟩ :=
            bind_eq_ok.mp loaded
          obtain ⟨others, othersLoaded, equality⟩ := bind_eq_ok.mp loaded
          rw [pure_eq_ok, Except.ok.injEq] at equality
          subst equality
          rw [List.filterMap_cons_some headerEq, List.map_cons, List.map_cons,
            loadSegment_bounds segmentLoaded, induction othersLoaded]

theorem fromElf_eq_ok {source format : String} {data : Buffer}
    {maxMemorySize : UInt64} {bundle : SnapshotBundle} :
    fromElfWithLimits source data format maxMemorySize = .ok bundle ↔
      maxMemorySize ≠ 0 ∧
      (64 ≤ data.length ∧ elfMagic <+: data.bytes ∧
        data.bytes[4]? = some 2 ∧ data.bytes[5]? = some 1) ∧
      ∃ programOffset, readU64 data 32 = .ok programOffset ∧
      ∃ entrySize, readU16 data 54 = .ok entrySize ∧
      ∃ entryCount, readU16 data 56 = .ok entryCount ∧
      56 ≤ entrySize.toNat ∧
      ∃ segments, loadSegments data programOffset entrySize.toUInt64
          maxMemorySize (indices entryCount) 0 = .ok segments ∧
        segments ≠ [] ∧
        arrange "ELF PT_LOAD physical ranges overlap" segments =
          .ok bundle.segments ∧
        bundle.provenance = ⟨format, source⟩ := by
  simp only [fromElfWithLimits, bind_eq_ok, rejectIf_eq_ok, exists_and_left,
    exists_const, pure_eq_ok, Except.ok.injEq, not_or, not_not, Nat.not_lt,
    ne_eq]
  constructor
  · intro given
    obtain ⟨positive, format, programOffset, offsetRead, entrySize, sizeRead,
      entryCount, countRead, large, segments, loaded, present, sorted,
      arranged, rfl⟩ := given
    exact ⟨positive, format, programOffset, offsetRead, entrySize, sizeRead,
      entryCount, countRead, large, segments, loaded, present, arranged, rfl⟩
  · intro given
    obtain ⟨positive, format, programOffset, offsetRead, entrySize, sizeRead,
      entryCount, countRead, large, segments, loaded, present, arranged,
      provenance⟩ := given
    exact ⟨positive, format, programOffset, offsetRead, entrySize, sizeRead,
      entryCount, countRead, large, segments, loaded, present, _, arranged,
      by rw [← provenance]⟩

/-- A loaded core holds the sorted segments of its `PT_LOAD` headers, and no
two neighbours overlap. -/
theorem fromElf_segments {source format : String} {data : Buffer}
    {maxMemorySize : UInt64} {bundle : SnapshotBundle}
    (loaded : fromElfWithLimits source data format maxMemorySize =
      .ok bundle) :
    ∃ segments, segments.map SnapshotSegment.bounds =
        (loadHeaders data).map ProgramHeader.bounds ∧
      bundle.segments = sortByStart segments ∧
      bundle.segments.IsChain NoOverlap := by
  obtain ⟨_, _, programOffset, offsetRead, entrySize, sizeRead, entryCount,
    countRead, _, segments, segmentsLoaded, _, arranged, _⟩ :=
    fromElf_eq_ok.mp loaded
  refine ⟨segments, ?_, arrange_eq_ok.mp arranged⟩
  rw [loadSegments_bounds segmentsLoaded, loadHeaders, offsetRead, sizeRead,
    countRead]

/-- The declared ranges in the order in which the loader compares them. -/
def sortedRanges (data : Buffer) : List (Nat × Nat) :=
  ((loadHeaders data).map ProgramHeader.bounds).mergeSort
    fun left right => left.1 ≤ right.1

theorem sortByStart_bounds (segments : List SnapshotSegment) :
    (sortByStart segments).map SnapshotSegment.bounds =
      (segments.map SnapshotSegment.bounds).mergeSort
        fun left right => left.1 ≤ right.1 :=
  List.map_mergeSort fun _ _ _ _ => rfl

/-- A loaded core is an unambiguous map exactly when no empty `PT_LOAD` header
hides an overlap of two others from the comparison of neighbours. -/
theorem elf_unambiguous_iff {source format : String} {data : Buffer}
    {maxMemorySize : UInt64} {bundle : SnapshotBundle}
    (loaded : fromElfWithLimits source data format maxMemorySize =
      .ok bundle) :
    (SortedByStart bundle.segments ∧
        bundle.segments.Pairwise fun left right =>
          ¬ ∃ address, left.range.contains address = true ∧
            right.range.contains address = true) ↔
      ¬ Hidden Prod.fst Prod.snd (sortedRanges data) := by
  obtain ⟨segments, boundsEq, segmentsEq, chain⟩ := fromElf_segments loaded
  have sorted : SortedByStart bundle.segments :=
    segmentsEq ▸ sortByStart_sorted segments
  have rangesEq :
      bundle.segments.map SnapshotSegment.bounds = sortedRanges data := by
    rw [segmentsEq, sortByStart_bounds, boundsEq]
    rfl
  have ordered : ∀ segment ∈ bundle.segments,
      segment.lower ≤ segment.upper := by
    intro segment _
    rw [segment.upper_eq]
    omega
  rw [← rangesEq, hidden_map]
  simp only [sorted, true_and, ← meet_iff_contains]
  exact pairwise_not_meet_iff ordered sorted chain

/-! Cores with a table of `PT_LOAD` headers right after the file header. -/

def ProgramHeader.encode (header : ProgramHeader) : List UInt8 :=
  toLe 4 1 ++ (toLe 4 0 ++ (toLe 8 header.fileOffset.toNat ++ (toLe 8 0 ++
    (toLe 8 header.physical.toNat ++ (toLe 8 header.fileSize.toNat ++
      (toLe 8 header.memorySize.toNat ++ toLe 8 0))))))

def elfImage (headers : List ProgramHeader) (payload : List UInt8) :
    List UInt8 :=
  elfMagic ++ ([2, 1] ++ (List.replicate 26 0 ++ (toLe 8 64 ++
    (List.replicate 14 0 ++ (toLe 2 56 ++ (toLe 2 headers.length ++
      (List.replicate 6 0 ++
        (headers.flatMap ProgramHeader.encode ++ payload))))))))

/-- Two bytes, an empty header at the same address, and a byte that the first
two already hold. -/
def hiddenOverlap : List ProgramHeader :=
  [⟨0, 0x1000, 0, 2⟩, ⟨0, 0x1000, 0, 0⟩, ⟨0, 0x1001, 0, 1⟩]

def hiddenOverlapFile : Buffer :=
  ⟨elfImage hiddenOverlap [], by decide +kernel⟩

def twoZeros : Buffer := ⟨[0, 0], by decide⟩

def hiddenOverlapSegments : List SnapshotSegment :=
  [.new ⟨0x1000⟩ twoZeros, .new ⟨0x1000⟩ .empty,
    .new ⟨0x1001⟩ ⟨[0], by decide⟩]

private theorem hiddenOverlap_loaded :
    fromElfVmcore "hidden.elf" hiddenOverlapFile =
      .ok ⟨⟨"elf-vmcore", "hidden.elf"⟩, hiddenOverlapSegments⟩ := by
  have sorted : sortByStart hiddenOverlapSegments = hiddenOverlapSegments :=
    sortByStart_of_sorted (by simp [SortedByStart]; decide)
  have chain : hiddenOverlapSegments.IsChain NoOverlap :=
    rejectOverlap_eq_ok.mp (show rejectOverlap "" _ = .ok () by decide)
  exact fromElf_eq_ok.mpr ⟨by decide, by decide +kernel, 64,
    by decide +kernel, 56, by decide +kernel, 3, by decide +kernel, by decide,
    hiddenOverlapSegments, by decide +kernel, by simp [hiddenOverlapSegments],
    arrange_eq_ok.mpr ⟨sorted.symm, chain⟩, rfl⟩

private theorem hiddenOverlap_shares :
    ¬ hiddenOverlapSegments.Pairwise fun left right =>
      ¬ ∃ address, left.range.contains address = true ∧
        right.range.contains address = true := by
  intro disjoint
  have separate := (List.pairwise_cons.mp disjoint).1
    (.new ⟨0x1001⟩ ⟨[0], by decide⟩) (by simp)
  exact separate ⟨⟨0x1001⟩, by decide, by decide⟩

theorem elf_hidden_overlap_accepted :
    ∃ bundle, fromElfVmcore "hidden.elf" hiddenOverlapFile = .ok bundle ∧
      ¬ bundle.segments.Pairwise fun left right =>
        ¬ ∃ address, left.range.contains address = true ∧
          right.range.contains address = true :=
  ⟨_, hiddenOverlap_loaded, hiddenOverlap_shares⟩

theorem elf_unambiguous_iff_hidden :
    Hidden Prod.fst Prod.snd (sortedRanges hiddenOverlapFile) := by
  by_contra notHidden
  exact hiddenOverlap_shares
    ((elf_unambiguous_iff hiddenOverlap_loaded).mpr notHidden).2

end LibVmi.Artifact
