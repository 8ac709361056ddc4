import LibVmi.Artifact.Elf
import LibVmi.Artifact.Kdmp
import LibVmi.Artifact.Lime
import LibVmi.Artifact.Manifest
import LibVmi.Artifact.ReadInto

namespace LibVmi.Artifact

open Data

/-! Memory maps without an ambiguity. -/

structure Unambiguous (segments : List SnapshotSegment) : Prop where
  nonempty : ∀ segment ∈ segments, 0 < segment.data.length
  sorted : SortedByStart segments
  disjoint : Disjoint segments

theorem unambiguous_of_arrange {message : String}
    {segments sorted : List SnapshotSegment}
    (arranged : arrange message segments = .ok sorted)
    (nonempty : ∀ segment ∈ segments, 0 < segment.data.length) :
    Unambiguous sorted where
  nonempty := by
    obtain ⟨rfl, _⟩ := arrange_eq_ok.mp arranged
    intro segment member
    exact nonempty segment (mem_sortByStart.mp member)
  sorted := by
    obtain ⟨rfl, _⟩ := arrange_eq_ok.mp arranged
    exact sortByStart_sorted segments
  disjoint := disjoint_of_arrange arranged nonempty

theorem sorted_of_disjoint {segments : List SnapshotSegment}
    (disjoint : Disjoint segments) : SortedByStart segments := by
  apply disjoint.imp
  intro left right before
  have upperEq := left.upper_eq
  simp only [Intervals.Before] at before
  omega

theorem fromBitmapKdmp_unambiguous {source : String} {data : Buffer}
    {bundle : SnapshotBundle}
    (loaded : fromBitmapKdmp source data = .ok bundle) :
    Unambiguous bundle.segments := by
  obtain ⟨bitmap, pages, payload, total, bound, _, taken⟩ :=
    fromBitmapKdmp_segments loaded
  obtain ⟨disjoint, each⟩ := bitmapPages_ordered taken (by omega)
  refine ⟨?_, sorted_of_disjoint disjoint, disjoint⟩
  intro segment member
  rw [(each segment member).1]
  omega

theorem fromKdmp_unambiguous {source : String} {data : Buffer}
    {bundle : SnapshotBundle} (loaded : fromKdmp source data = .ok bundle) :
    Unambiguous bundle.segments := by
  rcases (fromKdmp_eq_ok.mp loaded).2 with ⟨_, loaded⟩ | ⟨_, _, loaded⟩ |
    ⟨_, _, _, loaded⟩
  · exact fromBitmapKdmp_unambiguous loaded
  · obtain ⟨_, _, segments, taken, arranged⟩ := fromRdmpKdmp_segments loaded
    exact unambiguous_of_arrange arranged (rdmpRanges_table taken).2
  · obtain ⟨_, _, _, _, _, _, segments, taken, arranged, _⟩ :=
      fromRunKdmp_eq_ok.mp loaded
    exact unambiguous_of_arrange arranged (legacyRuns_table taken).2

theorem fromLime_unambiguous {source : String} {data : Buffer}
    {bundle : SnapshotBundle} (loaded : fromLime source data = .ok bundle) :
    Unambiguous bundle.segments := by
  simp only [fromLime, bind_eq_ok, pure_eq_ok, Except.ok.injEq] at loaded
  obtain ⟨_, ranges, _, _, sorted, arranged, rfl⟩ := loaded
  obtain ⟨records, rfl, _⟩ := (limeRanges_eq_ok (Nat.zero_le _)).mp ranges
  exact unambiguous_of_arrange arranged (LimeRecord.segments_nonempty records)

theorem manifest_unambiguous {host : Host} {path : String} {maxSegments : Nat}
    {maxTotalBytes : UInt64} {bundle : SnapshotBundle}
    (loaded : manifestFileWithLimits host path maxSegments maxTotalBytes =
      .ok bundle) : Unambiguous bundle.segments := by
  obtain ⟨segments, arranged, ranges⟩ := manifest_segments loaded
  exact unambiguous_of_arrange arranged fun segment member =>
    (ranges segment member).1

/-- Every loader but the ELF one only accepts an unambiguous map. -/
theorem loaded_maps_unambiguous (bundle : SnapshotBundle) :
    (∀ source data, fromLime source data = .ok bundle →
      Unambiguous bundle.segments) ∧
      (∀ source data, fromKdmp source data = .ok bundle →
        Unambiguous bundle.segments) ∧
      ∀ host path maxSegments maxTotalBytes,
        manifestFileWithLimits host path maxSegments maxTotalBytes =
          .ok bundle → Unambiguous bundle.segments :=
  ⟨fun _ _ => fromLime_unambiguous, fun _ _ => fromKdmp_unambiguous,
    fun _ _ _ _ => manifest_unambiguous⟩

/-- A dump of the last byte of the address space. -/
def lastByte : SnapshotSegment :=
  .new ⟨0xffffffffffffffff⟩ ⟨[7], by decide⟩

def lastByteImage : Buffer :=
  ⟨limeImage [lastByte], by decide⟩

private theorem lastByteImage_loaded :
    fromLime "last.lime" lastByteImage =
      .ok ⟨⟨"lime", "last.lime"⟩, sortByStart [lastByte]⟩ :=
  fromLime_limeImage "last.lime" (by simp) (by decide) (by decide)
    (List.pairwise_singleton _ _) rfl

/-- Two more bytes, which the dump lists behind the last. -/
theorem earlyBytes_bounded : ([5, 6] : List UInt8).length < 2 ^ 63 := by decide

def earlyBytes : SnapshotSegment :=
  .new ⟨0x1000⟩ ⟨[5, 6], earlyBytes_bounded⟩

theorem earlyBytes_apart : [lastByte, earlyBytes].Pairwise Apart :=
  List.pairwise_pair.mpr (.inr (show (0x1002 : Nat) ≤ 0xffffffffffffffff by
    decide))

theorem loaded_maps_unambiguous_last_byte :
    ∃ bundle, fromLime "two.lime" ⟨limeImage [lastByte, earlyBytes],
        by decide⟩ = .ok bundle ∧
      bundle.segments = [earlyBytes, lastByte] ∧
      Unambiguous bundle.segments := by
  have loaded := fromLime_limeImage "two.lime" (List.cons_ne_nil _ _)
    (by decide) (by decide) earlyBytes_apart
    (show (⟨limeImage [lastByte, earlyBytes], by decide⟩ : Buffer).bytes =
      limeImage [lastByte, earlyBytes] from rfl)
  have sorted : [earlyBytes, lastByte] = sortByStart [lastByte, earlyBytes] :=
    sortByStart_unique earlyBytes_apart (by decide) (.swap _ _ [])
      (List.pairwise_pair.mpr (by decide))
  exact ⟨_, loaded, sorted.symm,
    (loaded_maps_unambiguous _).1 "two.lime" _ loaded⟩

/-! Maps within the physical address space. -/

/-- Every segment ends within the address space, and each of its bytes has an
address that can be read. -/
def Addressable (bundle : SnapshotBundle) : Prop :=
  ∀ segment ∈ bundle.segments, segment.upper ≤ 2 ^ 64 ∧
    ∀ index < segment.data.length, ∃ address : Gpa,
      address.raw.toNat = segment.lower + index ∧
        (bundle.readInto address [0]).2 = .ok ()

theorem addressable_iff {bundle : SnapshotBundle}
    (sorted : SortedByStart bundle.segments) :
    Addressable bundle ↔ ∀ segment ∈ bundle.segments,
      segment.upper ≤ 2 ^ 64 := by
  constructor
  · intro addressable segment member
    exact (addressable segment member).1
  · intro fits segment member
    refine ⟨fits segment member, ?_⟩
    intro index within
    have upperEq := segment.upper_eq
    have upperBound := fits segment member
    have addressEq : (UInt64.ofNat (segment.lower + index)).toNat =
        segment.lower + index :=
      UInt64.toNat_ofNat_of_lt' (by
        unfold UInt64.size
        omega)
    refine ⟨⟨UInt64.ofNat (segment.lower + index)⟩, addressEq, ?_⟩
    rw [SnapshotBundle.readInto_eq_ok (by decide) (by decide)]
    simp only [addressEq, List.length_singleton]
    exact ⟨by omega, SnapshotBundle.coverage_of_mem sorted member
      (by omega) (by omega)⟩

inductive Loader where
  | raw (source : String) (base : Gpa) (data : Buffer)
  | rawFile (host : Host) (path : String) (base : Gpa) (maxFileSize : UInt64)
  | elf (source : String) (data : Buffer) (format : String)
      (maxMemorySize : UInt64)
  | kdmp (source : String) (data : Buffer)
  | lime (source : String) (data : Buffer)
  | manifest (host : Host) (path : String) (maxSegments : Nat)
      (maxTotalBytes : UInt64)

def Loader.load : Loader → Result SnapshotBundle
  | .raw source base data => tryFromRaw source base data
  | .rawFile host path base maxFileSize =>
      rawFileWithLimit host path base maxFileSize
  | .elf source data format maxMemorySize =>
      fromElfWithLimits source data format maxMemorySize
  | .kdmp source data => fromKdmp source data
  | .lime source data => fromLime source data
  | .manifest host path maxSegments maxTotalBytes =>
      manifestFileWithLimits host path maxSegments maxTotalBytes

/-- The runs that a dump without a bitmap declares. -/
def declaredRuns (data : Buffer) : List PhysicalRun :=
  if bitmapSigned data then []
  else if rdmpSigned data then
    match readU64 data 0x2010 with
    | .ok metadataSize => rangeTable data 0 (metadataSize.toNat / 16)
    | .error _ => []
  else
    match readU32 data 0x88 with
    | .ok runCount => runTable data 0x98 0 runCount.toNat
    | .error _ => []

/-- The declared ranges end within the address space, where nothing else makes
sure of it. -/
def Loader.Fits : Loader → Prop
  | .elf _ data _ _ => ∀ header ∈ loadHeaders data,
      header.physical.toNat + header.memorySize.toNat ≤ 2 ^ 64
  | .kdmp _ data => ∀ run ∈ declaredRuns data,
      (run.basePage.toNat + run.pageCount.toNat) * 4096 ≤ 2 ^ 64
  | _ => True

/-- Segments end where the entries they were made from say. -/
theorem upper_le_iff_bounds {α : Type} {segments : List SnapshotSegment}
    {entries : List α} {bounds : α → Nat × Nat}
    (table : segments.map SnapshotSegment.bounds = entries.map bounds)
    (limit : Nat) :
    (∀ segment ∈ segments, segment.upper ≤ limit) ↔
      ∀ entry ∈ entries, (bounds entry).2 ≤ limit := by
  have left : (∀ segment ∈ segments, segment.upper ≤ limit) ↔
      ∀ range ∈ segments.map SnapshotSegment.bounds, range.2 ≤ limit := by
    simp [SnapshotSegment.bounds]
  rw [left, table]
  simp

theorem elf_addressable_iff {source format : String} {data : Buffer}
    {maxMemorySize : UInt64} {bundle : SnapshotBundle}
    (loaded : fromElfWithLimits source data format maxMemorySize =
      .ok bundle) :
    Addressable bundle ↔ ∀ header ∈ loadHeaders data,
      header.physical.toNat + header.memorySize.toNat ≤ 2 ^ 64 := by
  obtain ⟨segments, table, segmentsEq, _⟩ := fromElf_segments loaded
  rw [addressable_iff (segmentsEq ▸ sortByStart_sorted segments), segmentsEq]
  simp only [mem_sortByStart]
  exact upper_le_iff_bounds table (2 ^ 64)

theorem bitmap_addressable {source : String} {data : Buffer}
    {bundle : SnapshotBundle}
    (loaded : fromBitmapKdmp source data = .ok bundle) :
    Addressable bundle := by
  rw [addressable_iff (fromBitmapKdmp_unambiguous loaded).sorted]
  obtain ⟨bitmap, pages, payload, total, bound, _, taken⟩ :=
    fromBitmapKdmp_segments loaded
  intro segment member
  obtain ⟨lengthEq, _, aligned⟩ :=
    (bitmapPages_ordered taken (by omega)).2 segment member
  -- A page number times the page size fits, so the page itself does too.
  have lowerBound : segment.lower < 2 ^ 64 := segment.range.start.raw.toNat_lt
  rw [segment.upper_eq, lengthEq]
  omega

theorem arranged_addressable_iff {message : String}
    {segments : List SnapshotSegment} {bundle : SnapshotBundle}
    (arranged : arrange message segments = .ok bundle.segments) :
    Addressable bundle ↔ ∀ segment ∈ segments, segment.upper ≤ 2 ^ 64 := by
  have segmentsEq := (arrange_eq_ok.mp arranged).1
  rw [addressable_iff (segmentsEq ▸ sortByStart_sorted segments), segmentsEq]
  simp only [mem_sortByStart]

theorem kdmp_addressable_iff {source : String} {data : Buffer}
    {bundle : SnapshotBundle} (loaded : fromKdmp source data = .ok bundle) :
    Addressable bundle ↔ ∀ run ∈ declaredRuns data,
      (run.basePage.toNat + run.pageCount.toNat) * 4096 ≤ 2 ^ 64 := by
  rcases (fromKdmp_eq_ok.mp loaded).2 with ⟨signed, loaded⟩ |
    ⟨unsigned, signed, loaded⟩ | ⟨noBitmap, noRanges, _, loaded⟩
  · rw [declaredRuns, if_pos signed]
    simp [bitmap_addressable loaded]
  · obtain ⟨metadataSize, sizeRead, segments, taken, arranged⟩ :=
      fromRdmpKdmp_segments loaded
    rw [declaredRuns, if_neg unsigned, if_pos signed, sizeRead,
      arranged_addressable_iff arranged]
    exact upper_le_iff_bounds (rdmpRanges_table taken).1 (2 ^ 64)
  · obtain ⟨_, runCount, countRead, _, _, _, segments, taken, arranged, _⟩ :=
      fromRunKdmp_eq_ok.mp loaded
    rw [declaredRuns, if_neg noBitmap, if_neg noRanges, countRead,
      arranged_addressable_iff arranged]
    exact upper_le_iff_bounds (legacyRuns_table taken).1 (2 ^ 64)

theorem raw_addressable {source : String} {base : Gpa} {data : Buffer}
    {bundle : SnapshotBundle}
    (loaded : tryFromRaw source base data = .ok bundle) :
    Addressable bundle := by
  simp only [tryFromRaw, bind_eq_ok, rejectIf_eq_ok, pure_eq_ok,
    Except.ok.injEq, exists_and_left, exists_const] at loaded
  obtain ⟨fits, rfl⟩ := loaded
  have sorted : SortedByStart (fromRaw source base data).segments :=
    List.pairwise_singleton _ _
  rw [addressable_iff sorted]
  intro segment member
  rw [fromRaw, List.mem_singleton] at member
  rw [member, SnapshotSegment.new_upper]
  omega

theorem lime_addressable {source : String} {data : Buffer}
    {bundle : SnapshotBundle} (loaded : fromLime source data = .ok bundle) :
    Addressable bundle := by
  obtain ⟨records, _, _, _, rfl⟩ := fromLime_eq_ok.mp loaded
  rw [addressable_iff (sortByStart_sorted _)]
  intro segment member
  obtain ⟨record, _, rfl⟩ := List.mem_map.mp (mem_sortByStart.mp member)
  rw [record.segment_upper]
  exact record.stop.toNat_lt

theorem manifest_addressable {host : Host} {path : String} {maxSegments : Nat}
    {maxTotalBytes : UInt64} {bundle : SnapshotBundle}
    (loaded : manifestFileWithLimits host path maxSegments maxTotalBytes =
      .ok bundle) : Addressable bundle := by
  obtain ⟨segments, arranged, ranges⟩ := manifest_segments loaded
  rw [arranged_addressable_iff arranged]
  intro segment member
  exact Nat.le_of_lt (ranges segment member).2

/-- What a loader accepts is addressable exactly when the ranges that its
headers declare end within the address space. -/
theorem loaded_addressable_iff {loader : Loader} {bundle : SnapshotBundle}
    (loaded : loader.load = .ok bundle) :
    Addressable bundle ↔ loader.Fits := by
  cases loader with
  | raw source base data => simp [Loader.Fits, raw_addressable loaded]
  | rawFile host path base maxFileSize =>
      obtain ⟨data, _, loaded⟩ := bind_eq_ok.mp loaded
      simp [Loader.Fits, raw_addressable loaded]
  | elf source data format maxMemorySize => exact elf_addressable_iff loaded
  | kdmp source data => exact kdmp_addressable_iff loaded
  | lime source data => simp [Loader.Fits, lime_addressable loaded]
  | manifest host path maxSegments maxTotalBytes =>
      simp [Loader.Fits, manifest_addressable loaded]

theorem loaded_addressable_last_byte :
    ∃ bundle, (Loader.lime "last.lime" lastByteImage).load = .ok bundle ∧
      Addressable bundle := by
  have loaded : (Loader.lime "last.lime" lastByteImage).load =
      .ok ⟨⟨"lime", "last.lime"⟩, sortByStart [lastByte]⟩ :=
    lastByteImage_loaded
  exact ⟨_, loaded, (loaded_addressable_iff loaded).mpr trivial⟩

/-- A header that starts at the last address and declares two bytes. -/
def wrappingFile : Buffer :=
  ⟨elfImage [⟨0, 0xffffffffffffffff, 0, 2⟩] [], by decide +kernel⟩

def wrappingSegment : SnapshotSegment :=
  .new ⟨0xffffffffffffffff⟩ twoZeros

theorem elf_wrapping_segment_accepted :
    ∃ bundle,
      (Loader.elf "wrapping.elf" wrappingFile "elf-vmcore"
        defaultMaxArtifactSize).load = .ok bundle ∧
      (∃ segment ∈ bundle.segments, 2 ^ 64 < segment.upper) ∧
      ¬ Addressable bundle := by
  have sorted : sortByStart [wrappingSegment] = [wrappingSegment] :=
    sortByStart_of_sorted (List.pairwise_singleton _ _)
  have arranged : arrange "ELF PT_LOAD physical ranges overlap"
      [wrappingSegment] = .ok [wrappingSegment] :=
    arrange_eq_ok.mpr ⟨sorted.symm, List.isChain_singleton _⟩
  have beyond : 2 ^ 64 < wrappingSegment.upper := by decide
  refine ⟨⟨⟨"elf-vmcore", "wrapping.elf"⟩, [wrappingSegment]⟩, ?_,
    ⟨wrappingSegment, List.mem_singleton_self _, beyond⟩, ?_⟩
  · exact fromElf_eq_ok.mpr ⟨by decide, by decide +kernel, 64,
      by decide +kernel, 56, by decide +kernel, 1, by decide +kernel, by decide,
      [wrappingSegment], by decide +kernel, by simp, arranged, rfl⟩
  · intro addressable
    have within := (addressable wrappingSegment (List.mem_singleton_self _)).1
    omega

end LibVmi.Artifact
