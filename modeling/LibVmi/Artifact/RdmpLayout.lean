import LibVmi.Artifact.KdmpImage

namespace LibVmi.Artifact

open Data

/-! What the range table of a dump is read from. The table has a slot for every
sixteen bytes of metadata and starts sixteen bytes after the metadata does, so
its last slot lies in the first page of guest memory. -/

/-- The ranges that a bundle is made of, where there is one. -/
def layoutOf (loaded : Result SnapshotBundle) :
    Option (List MemoryRange) :=
  loaded.toOption.map fun bundle => bundle.segments.map SnapshotSegment.range

/-- Two range dumps that differ in guest memory only. -/
structure SharesHeader (left right : Buffer) : Prop where
  length : left.length = right.length
  leftSigned : rdmpSigned left
  rightSigned : rdmpSigned right
  header : ∃ firstPage, readU64 left 0x2018 = .ok firstPage ∧
    readU64 right 0x2018 = .ok firstPage ∧
    left.bytes.take firstPage.toNat = right.bytes.take firstPage.toNat

theorem SharesHeader.symm {left right : Buffer}
    (shares : SharesHeader left right) : SharesHeader right left := by
  obtain ⟨firstPage, leftRead, rightRead, shared⟩ := shares.header
  exact ⟨shares.length.symm, shares.rightSigned, shares.leftSigned,
    firstPage, rightRead, leftRead, shared.symm⟩

theorem readRun_congr_take {left right : Buffer} {count offset : Nat}
    (shared : left.bytes.take count = right.bytes.take count)
    (within : offset + 16 ≤ count) :
    readRun left offset = readRun right offset := by
  unfold readRun
  rw [readU64_congr_take shared (by omega)]
  cases added : addOffset offset 8 with
  | error error => rfl
  | ok next =>
      obtain ⟨rfl, _⟩ := addOffset_eq_ok.mp added
      simp only [ok_bind, readU64_congr_take shared within]

/-- The pages of a run are looked at for their number only. -/
theorem loadRun_same_length {messages : RunMessages} {left right : Buffer}
    (length : left.length = right.length) {run : PhysicalRun}
    {payload next : Nat} {segment : SnapshotSegment}
    (loaded : loadRun messages left run payload = .ok (segment, next)) :
    ∃ other, loadRun messages right run payload = .ok (other, next) ∧
      other.range = segment.range := by
  obtain ⟨taken, lengthEq, lowerEq⟩ := loadRun_eq_ok.mp loaded
  have bounds := slice_length taken
  change payload + segment.data.length = _ ∧ _ ≤ left.length at bounds
  obtain ⟨bytes, takenRight⟩ : ∃ bytes,
      slice right.bytes payload next = some bytes :=
    slice_exists (by omega) (by
      change next ≤ right.length
      omega)
  have rightBounds := slice_length takenRight
  have sized : bytes.length = segment.data.length := by omega
  let data : Buffer := ⟨bytes, sized ▸ segment.data.length_lt⟩
  refine ⟨.new segment.range.start data, loadRun_eq_ok.mpr
    ⟨takenRight, sized.trans lengthEq, lowerEq⟩, ?_⟩
  have range := congrArg SnapshotSegment.range segment.new_self
  rw [← range]
  simp only [SnapshotSegment.new]
  rw [show data.length = segment.data.length from sized]

theorem runTable_congr_take {left right : Buffer} {limit base index : Nat}
    (shared : left.bytes.take limit = right.bytes.take limit) {count : Nat}
    (within : base + (index + count) * 16 ≤ limit) :
    runTable left base index count = runTable right base index count := by
  apply List.filterMap_congr
  intro entry member
  have bounds := List.mem_range'_1.mp member
  rw [readRun_congr_take shared (by omega)]

/-- A table that ends in the header is read from the header. -/
theorem rdmpRanges_shared {left right : Buffer}
    (length : left.length = right.length) {limit : Nat}
    (shared : left.bytes.take limit = right.bytes.take limit)
    {remaining index payload : Nat} {segments : List SnapshotSegment}
    (loaded : rdmpRanges left remaining index payload = .ok segments)
    {slot : Nat} (within : 0x2030 + (index + slot) * 16 + 16 ≤ limit)
    (inside : slot < remaining) {last : PhysicalRun}
    (lastRead : readRun left (0x2030 + (index + slot) * 16) = .ok last)
    (ends : last.basePage = 0) :
    ∃ others, rdmpRanges right remaining index payload = .ok others ∧
      others.map SnapshotSegment.range =
        segments.map SnapshotSegment.range := by
  induction remaining generalizing index payload segments slot with
  | zero => omega
  | succ remaining induction =>
      obtain ⟨run, read, stops | ⟨more, positive, segment, next,
        segmentLoaded, rest, restLoaded, rfl⟩⟩ := rdmpRanges_step.mp loaded
      · obtain ⟨zero, rfl⟩ := stops
        have again := readRun_congr_take shared
          (show 0x2030 + index * 16 + 16 ≤ limit by omega)
        exact ⟨[], rdmpRanges_step.mpr
          ⟨run, again ▸ read, .inl ⟨zero, rfl⟩⟩, rfl⟩
      · have again := readRun_congr_take shared
          (show 0x2030 + index * 16 + 16 ≤ limit by omega)
        cases slot with
        | zero =>
            rw [Nat.add_zero, read] at lastRead
            rw [← Except.ok.inj lastRead] at ends
            exact absurd ends more
        | succ slot =>
            rw [← Nat.add_assoc, Nat.add_right_comm index] at within lastRead
            obtain ⟨others, othersLoaded, restRanges⟩ :=
              induction restLoaded within (by omega) lastRead
            obtain ⟨other, otherLoaded, range⟩ :=
              loadRun_same_length length segmentLoaded
            refine ⟨other :: others, rdmpRanges_step.mpr ⟨run, again ▸ read,
              .inr ⟨more, positive, other, next, otherLoaded, others,
                othersLoaded, rfl⟩⟩, ?_⟩
            rw [List.map_cons, List.map_cons, range, restRanges]

/-! Tables whose slots in the header are all in use. -/

structure PhysicalRun.Usable (run : PhysicalRun) : Prop where
  base : run.basePage ≠ 0
  positive : 0 < run.pageCount.toNat
  address : run.basePage.toNat * 4096 < 2 ^ 64

def PhysicalRun.Disjoint (left right : PhysicalRun) : Prop :=
  left.bounds.2 ≤ right.bounds.1 ∨ right.bounds.2 ≤ left.bounds.1

def runPages (runs : List PhysicalRun) : Nat :=
  (runs.map fun run => run.pageCount.toNat).sum

@[simp] theorem runPages_cons (run : PhysicalRun) (runs : List PhysicalRun) :
    runPages (run :: runs) = run.pageCount.toNat + runPages runs := rfl

theorem loadRun_of_fits (messages : RunMessages) {data : Buffer}
    {run : PhysicalRun} {payload : Nat}
    (address : run.basePage.toNat * 4096 < 2 ^ 64)
    (fits : payload + run.pageCount.toNat * 4096 ≤ data.length) :
    ∃ segment, loadRun messages data run payload =
      .ok (segment, payload + run.pageCount.toNat * 4096) := by
  obtain ⟨bytes, taken⟩ : ∃ bytes, slice data.bytes payload
      (payload + run.pageCount.toNat * 4096) = some bytes :=
    slice_exists (Nat.le_add_right _ _) fits
  have bounds := slice_length taken
  have whole := data.length_lt
  let pages : Buffer := ⟨bytes, by omega⟩
  refine ⟨.new ⟨UInt64.ofNat (run.basePage.toNat * 4096)⟩ pages,
    loadRun_eq_ok.mpr ⟨taken, slice_width taken, ?_⟩⟩
  exact UInt64.toNat_ofNat_of_lt' address

theorem readRun_of_within {data : Buffer} {offset : Nat}
    (within : offset + 16 ≤ data.length) :
    ∃ run, readRun data offset = .ok run := by
  have whole := data.length_lt_limit
  obtain ⟨basePage, baseRead⟩ : ∃ basePage,
      readU64 data offset = .ok basePage := readU64_of_within (by omega)
  obtain ⟨pageCount, countRead⟩ : ∃ pageCount,
      readU64 data (offset + 8) = .ok pageCount := readU64_of_within (by omega)
  have added : addOffset offset 8 = .ok (offset + 8) :=
    addOffset_eq_ok.mpr ⟨rfl, by omega⟩
  refine ⟨⟨basePage, pageCount⟩, ?_⟩
  rw [readRun, baseRead, added]
  simp only [ok_bind, countRead, pure_eq_ok]

/-- A full table that ends with its last slot. -/
theorem rdmpRanges_full {data : Buffer} {count index payload : Nat}
    (within : 0x2030 + (index + count) * 16 ≤ data.length)
    (used : ∀ run ∈ runTable data 0x2030 index count, run.Usable)
    (fits : payload + runPages (runTable data 0x2030 index count) * 4096 ≤
      data.length)
    {last : PhysicalRun}
    (lastRead : readRun data (0x2030 + (index + count) * 16) = .ok last)
    (ends : last.basePage = 0) :
    ∃ segments, rdmpRanges data (count + 1) index payload = .ok segments ∧
      segments.map SnapshotSegment.bounds =
        (runTable data 0x2030 index count).map PhysicalRun.bounds := by
  induction count generalizing index payload with
  | zero =>
      exact ⟨[], rdmpRanges_step.mpr ⟨last, lastRead, .inl ⟨ends, rfl⟩⟩, rfl⟩
  | succ count induction =>
      obtain ⟨run, read⟩ : ∃ run, readRun data (0x2030 + index * 16) = .ok run :=
        readRun_of_within (by omega)
      rw [runTable_succ read] at used fits ⊢
      rw [runPages_cons, Nat.add_mul, ← Nat.add_assoc] at fits
      rw [← Nat.add_assoc, Nat.add_right_comm index] at within lastRead
      have usable := used run List.mem_cons_self
      obtain ⟨segment, segmentLoaded⟩ := loadRun_of_fits (rdmpMessages index)
        usable.address (Nat.le_trans (Nat.le_add_right _ _) fits)
      obtain ⟨rest, restLoaded, restBounds⟩ := induction within
        (fun other member => used other (List.mem_cons_of_mem _ member)) fits
        lastRead
      refine ⟨segment :: rest, rdmpRanges_step.mpr ⟨run, read, .inr
        ⟨usable.base, usable.positive, segment, _, segmentLoaded, rest,
          restLoaded, rfl⟩⟩, ?_⟩
      rw [List.map_cons, List.map_cons, restBounds,
        loadRun_bounds segmentLoaded]

/-- A table that does not end in the header has no unused slot there, and its
last slot is read. -/
theorem rdmpRanges_continues {data : Buffer} {count index payload : Nat}
    {segments : List SnapshotSegment}
    (loaded : rdmpRanges data (count + 1) index payload = .ok segments)
    (start : payload ≤ data.length)
    (continues : ∀ run ∈ runTable data 0x2030 index count, run.basePage ≠ 0) :
    (∀ run ∈ runTable data 0x2030 index count, run.Usable) ∧
      payload + runPages (runTable data 0x2030 index count) * 4096 ≤
        data.length ∧
      (∃ first rest, segments = first ++ rest ∧
        first.map SnapshotSegment.bounds =
          (runTable data 0x2030 index count).map PhysicalRun.bounds) ∧
      ∃ last, readRun data (0x2030 + (index + count) * 16) = .ok last ∧
        (last.basePage = 0 ∨ 0 < last.pageCount.toNat) := by
  induction count generalizing index payload segments with
  | zero =>
      obtain ⟨last, read, ⟨zero, _⟩ | ⟨_, positive, _⟩⟩ :=
        rdmpRanges_step.mp loaded
      · exact ⟨by simp [runTable], by simpa [runTable, runPages] using start,
          ⟨[], segments, rfl, rfl⟩, last, read, .inl zero⟩
      · exact ⟨by simp [runTable], by simpa [runTable, runPages] using start,
          ⟨[], segments, rfl, rfl⟩, last, read, .inr positive⟩
  | succ count induction =>
      obtain ⟨run, read, step⟩ := rdmpRanges_step.mp loaded
      rw [runTable_succ read] at continues ⊢
      obtain ⟨zero, _⟩ | ⟨base, positive, segment, next, segmentLoaded, rest,
        restLoaded, rfl⟩ := step
      · exact absurd zero (continues run List.mem_cons_self)
      · obtain ⟨taken, lengthEq, lowerEq⟩ := loadRun_eq_ok.mp segmentLoaded
        have bounds := slice_length taken
        change payload + segment.data.length = _ ∧ _ ≤ data.length at bounds
        obtain ⟨used, fits, ⟨first, others, restEq, firstBounds⟩, last⟩ :=
          induction restLoaded bounds.2 fun other member =>
            continues other (List.mem_cons_of_mem _ member)
        have usable : run.Usable :=
          ⟨base, positive, lowerEq ▸ segment.range.start.raw.toNat_lt⟩
        rw [Nat.add_right_comm index, Nat.add_assoc index] at last
        refine ⟨List.forall_mem_cons.mpr ⟨usable, used⟩, ?_,
          ⟨segment :: first, others, ?_, ?_⟩, last⟩
        · rw [runPages_cons]
          omega
        · rw [restEq, List.cons_append]
        · rw [List.map_cons, List.map_cons, firstBounds,
            loadRun_bounds segmentLoaded]

/-! Whole dumps. -/

/-- The metadata that is checked before the table is read. -/
structure RdmpHeader (data : Buffer) (metadataSize : UInt64) : Prop where
  marker : slice data.bytes 0x2008 0x200c = some (ascii "DUMP")
  sizeRead : readU64 data 0x2010 = .ok metadataSize
  large : 0x20 ≤ metadataSize.toNat
  aligned : metadataSize.toNat % 16 = 0
  placed : ∃ firstPage, readU64 data 0x2018 = .ok firstPage ∧
    firstPage.toNat = metadataSize.toNat + 0x2020
  within : metadataSize.toNat + 0x2020 ≤ data.length

theorem fromRdmpKdmp_eq_ok {source : String} {data : Buffer}
    {bundle : SnapshotBundle} :
    fromRdmpKdmp source data = .ok bundle ↔
      ∃ metadataSize, RdmpHeader data metadataSize ∧
      ∃ segments, rdmpRanges data (metadataSize.toNat / 16) 0
          (metadataSize.toNat + 0x2020) = .ok segments ∧ segments ≠ [] ∧
        arrange "RDMP KDMP physical ranges overlap" segments =
          .ok bundle.segments ∧
        bundle.provenance = ⟨"windows-kdmp-rdmp", source⟩ := by
  simp only [fromRdmpKdmp, bind_eq_ok, okOr_eq_ok, rejectIf_eq_ok,
    checkedAdd_eq_some, unsigned_toNat_uint64, pure_eq_ok, Except.ok.injEq,
    exists_and_left, exists_const, ne_eq, not_not]
  have offset : UInt64.toNat 0x2020 = 0x2020 := rfl
  constructor
  · intro given
    obtain ⟨marker, metadataSize, sizeRead, firstPage, firstRead, layout,
      expected, placed, rfl, within, segments, loaded, present, sorted,
      arranged, rfl⟩ := given
    rw [placed, offset] at loaded within
    exact ⟨metadataSize, ⟨marker, sizeRead, by omega, by omega,
      ⟨firstPage, firstRead, placed⟩, by omega⟩, segments, loaded, present,
      arranged, rfl⟩
  · intro given
    obtain ⟨metadataSize, header, segments, loaded, present, arranged,
      provenance⟩ := given
    obtain ⟨firstPage, firstRead, placed⟩ := header.placed
    have large := header.large
    have aligned := header.aligned
    have within := header.within
    rw [← placed] at loaded within
    exact ⟨header.marker, metadataSize, header.sizeRead, firstPage, firstRead,
      by omega, firstPage, placed, rfl, Nat.not_lt.mpr within, segments,
      loaded, present, bundle.segments, arranged, by rw [← provenance]⟩

theorem SharesHeader.rdmpHeader {left right : Buffer}
    (shares : SharesHeader left right) {metadataSize : UInt64}
    (header : RdmpHeader left metadataSize) :
    RdmpHeader right metadataSize ∧
      left.bytes.take (metadataSize.toNat + 0x2020) =
        right.bytes.take (metadataSize.toNat + 0x2020) := by
  obtain ⟨firstPage, leftRead, rightRead, shared⟩ := shares.header
  obtain ⟨again, readAgain, placed⟩ := header.placed
  rw [leftRead] at readAgain
  obtain rfl := Except.ok.inj readAgain
  rw [placed] at shared
  have marker : slice left.bytes 0x2008 0x200c =
      slice right.bytes 0x2008 0x200c :=
    slice_congr_take shared (by omega)
  have size := readU64_congr_take shared
    (show 0x2010 + 8 ≤ metadataSize.toNat + 0x2020 by omega)
  exact ⟨⟨marker ▸ header.marker, size ▸ header.sizeRead, header.large,
    header.aligned, ⟨firstPage, rightRead, placed⟩,
    shares.length ▸ header.within⟩, shared⟩

/-- The slots of the table that lie before the payload. -/
def headerRuns (data : Buffer) (metadataSize : UInt64) : List PhysicalRun :=
  runTable data 0x2030 0 (metadataSize.toNat / 16 - 1)

/-- Every slot before the payload describes a range that can be loaded. -/
structure FullTable (data : Buffer) (metadataSize : UInt64) : Prop where
  signed : rdmpSigned data
  header : RdmpHeader data metadataSize
  used : ∀ run ∈ headerRuns data metadataSize, run.Usable
  fits : metadataSize.toNat + 0x2020 +
    runPages (headerRuns data metadataSize) * 4096 ≤ data.length
  disjoint : (headerRuns data metadataSize).Pairwise PhysicalRun.Disjoint

/-- There is room for one slot at least. -/
theorem RdmpHeader.headerRuns_cons {data : Buffer} {metadataSize : UInt64}
    (header : RdmpHeader data metadataSize) :
    ∃ run rest, headerRuns data metadataSize = run :: rest := by
  have large := header.large
  have within := header.within
  have slots : metadataSize.toNat / 16 - 1 =
      metadataSize.toNat / 16 - 2 + 1 := by
    omega
  obtain ⟨run, read⟩ : ∃ run, readRun data (0x2030 + 0 * 16) = .ok run :=
    readRun_of_within (by omega)
  exact ⟨run, _, by rw [headerRuns, slots, runTable_succ read]⟩

theorem SharesHeader.headerRuns {left right : Buffer}
    (shares : SharesHeader left right) {metadataSize : UInt64}
    (header : RdmpHeader left metadataSize) :
    headerRuns left metadataSize = headerRuns right metadataSize := by
  have large := header.large
  have aligned := header.aligned
  exact runTable_congr_take (shares.rdmpHeader header).2 (by omega)

theorem SharesHeader.fullTable {left right : Buffer}
    (shares : SharesHeader left right) {metadataSize : UInt64}
    (full : FullTable left metadataSize) : FullTable right metadataSize := by
  have runs := shares.headerRuns full.header
  exact ⟨shares.rightSigned, (shares.rdmpHeader full.header).1,
    runs ▸ full.used, runs ▸ shares.length ▸ full.fits, runs ▸ full.disjoint⟩

theorem layoutOf_eq_some {loaded : Result SnapshotBundle}
    {ranges : List MemoryRange} :
    layoutOf loaded = some ranges ↔
      ∃ bundle, loaded = .ok bundle ∧
        bundle.segments.map SnapshotSegment.range = ranges := by
  cases loaded with
  | error error => simp [layoutOf, Except.toOption]
  | ok bundle => simp [layoutOf, Except.toOption]

/-- Sorting and comparing look at the ranges only. -/
theorem arrange_same_ranges {message : String}
    {segments others sorted : List SnapshotSegment}
    (ranges : others.map SnapshotSegment.range =
      segments.map SnapshotSegment.range)
    (arranged : arrange message segments = .ok sorted) :
    ∃ othersSorted, arrange message others = .ok othersSorted ∧
      othersSorted.map SnapshotSegment.range =
        sorted.map SnapshotSegment.range := by
  obtain ⟨rfl, chain⟩ := arrange_eq_ok.mp arranged
  have mapped (segments : List SnapshotSegment) :
      (sortByStart segments).map SnapshotSegment.range =
        (segments.map SnapshotSegment.range).mergeSort fun left right =>
          left.start.raw.toNat ≤ right.start.raw.toNat :=
    List.map_mergeSort fun _ _ _ _ => rfl
  have sortedRanges : (sortByStart others).map SnapshotSegment.range =
      (sortByStart segments).map SnapshotSegment.range := by
    rw [mapped, mapped, ranges]
  have byRange (segments : List SnapshotSegment) :
      segments.IsChain NoOverlap ↔
        (segments.map SnapshotSegment.range).IsChain fun left right =>
          ¬ rangesOverlap left right = true := by
    simp only [List.isChain_map, rangesOverlap_eq_true]
  refine ⟨sortByStart others, arrange_eq_ok.mpr ⟨rfl, ?_⟩, sortedRanges⟩
  rw [byRange, sortedRanges, ← byRange]
  exact chain

/-- Neighbours in a table of disjoint runs and in the segments loaded from it
are told apart alike. -/
theorem apart_iff_disjoint {segments : List SnapshotSegment}
    {runs : List PhysicalRun}
    (bounds : segments.map SnapshotSegment.bounds =
      runs.map PhysicalRun.bounds) :
    segments.Pairwise Apart ↔ runs.Pairwise PhysicalRun.Disjoint := by
  have ordered := congrArg (List.Pairwise fun left right : Nat × Nat =>
    left.2 ≤ right.1 ∨ right.2 ≤ left.1) bounds
  rw [List.pairwise_map, List.pairwise_map] at ordered
  exact Iff.of_eq ordered

/-- A dump that is loaded ends its table in the header, or has no slot to spare
there. -/
theorem fullTable_of_continues {data : Buffer} {metadataSize : UInt64}
    (signed : rdmpSigned data) (header : RdmpHeader data metadataSize)
    {message : String} {segments sorted : List SnapshotSegment}
    (loaded : rdmpRanges data (metadataSize.toNat / 16) 0
      (metadataSize.toNat + 0x2020) = .ok segments)
    (arranged : arrange message segments = .ok sorted)
    (continues : ∀ run ∈ headerRuns data metadataSize, run.basePage ≠ 0) :
    FullTable data metadataSize := by
  have apart := apart_of_arrange arranged (rdmpRanges_table loaded).2
  have large := header.large
  have slots : metadataSize.toNat / 16 = metadataSize.toNat / 16 - 1 + 1 := by
    omega
  rw [slots] at loaded
  obtain ⟨used, fits, ⟨first, rest, rfl, bounds⟩, _⟩ :=
    rdmpRanges_continues loaded header.within continues
  refine ⟨signed, header, used, fits, (apart_iff_disjoint bounds).mp ?_⟩
  exact apart.sublist (List.sublist_append_left first rest)

theorem layout_shared {source : String} {left right : Buffer}
    (shares : SharesHeader left right)
    (spare : ¬ ∃ metadataSize, FullTable left metadataSize)
    {ranges : List MemoryRange}
    (layout : layoutOf (fromRdmpKdmp source left) = some ranges) :
    layoutOf (fromRdmpKdmp source right) = some ranges := by
  obtain ⟨bundle, loaded, rfl⟩ := layoutOf_eq_some.mp layout
  obtain ⟨metadataSize, header, segments, taken, present, arranged, _⟩ :=
    fromRdmpKdmp_eq_ok.mp loaded
  have ends : ∃ run ∈ headerRuns left metadataSize, run.basePage = 0 := by
    by_contra none
    refine spare ⟨metadataSize, fullTable_of_continues shares.leftSigned header
      taken arranged ?_⟩
    intro run member zero
    exact none ⟨run, member, zero⟩
  obtain ⟨run, member, zero⟩ := ends
  obtain ⟨slot, inside, read⟩ := List.mem_filterMap.mp member
  obtain ⟨rightHeader, shared⟩ := shares.rdmpHeader header
  have bounds := List.mem_range'_1.mp inside
  have large := header.large
  have aligned := header.aligned
  have readOk : readRun left (0x2030 + (0 + slot) * 16) = .ok run := by
    rw [Nat.zero_add]
    cases outcome : readRun left (0x2030 + slot * 16) with
    | error error =>
        rw [outcome] at read
        contradiction
    | ok other =>
        rw [outcome] at read
        exact congrArg Except.ok (Option.some.inj read)
  obtain ⟨others, othersTaken, othersRanges⟩ := rdmpRanges_shared shares.length
    shared taken (by omega) (by omega) readOk zero
  obtain ⟨sorted, sortedArranged, sortedRanges⟩ :=
    arrange_same_ranges othersRanges arranged
  refine layoutOf_eq_some.mpr ⟨⟨⟨"windows-kdmp-rdmp", source⟩, sorted⟩,
    fromRdmpKdmp_eq_ok.mpr ⟨metadataSize, rightHeader, others, othersTaken, ?_,
      sortedArranged, rfl⟩, sortedRanges⟩
  intro same
  subst same
  exact present (List.map_eq_nil_iff.mp othersRanges.symm)

/-- Another dump with the given entry in the slot that lies in guest memory. -/
theorem exists_patched (data : Buffer) (offset : Nat) (entry : List UInt8)
    (within : offset + entry.length ≤ data.length) :
    ∃ patched : Buffer, data.length = patched.length ∧
      data.bytes.take offset = patched.bytes.take offset ∧
      slice patched.bytes offset (offset + entry.length) = some entry := by
  have taken : (data.bytes.take offset).length = offset := by
    rw [List.length_take]
    change min offset data.length = offset
    omega
  let bytes := data.bytes.take offset ++ entry ++
    data.bytes.drop (offset + entry.length)
  have length : data.length = bytes.length := by
    simp only [bytes, List.length_append, taken, List.length_drop]
    change _ = _ + (data.length - _)
    omega
  refine ⟨⟨bytes, length ▸ data.length_lt⟩, length, ?_, ?_⟩
  · simp only [bytes]
    rw [List.append_assoc, List.take_left' taken]
  · exact slice_eq_some.mpr ⟨_, _, rfl, taken, rfl⟩

theorem FullTable.exists_shared {data : Buffer} {metadataSize : UInt64}
    (full : FullTable data metadataSize) (last : PhysicalRun) :
    ∃ patched, SharesHeader data patched ∧
      readRun patched (metadataSize.toNat + 0x2020) = .ok last := by
  have large := full.header.large
  have aligned := full.header.aligned
  have fits := full.fits
  -- The first slot is in use, so there is at least one page of guest memory.
  have page : 0 < runPages (headerRuns data metadataSize) := by
    obtain ⟨run, rest, runs⟩ := full.header.headerRuns_cons
    have positive := (full.used run (by rw [runs]; simp)).positive
    rw [runs, runPages_cons]
    omega
  obtain ⟨patched, length, shared, slot⟩ := exists_patched data
    (metadataSize.toNat + 0x2020)
    (toLe 8 last.basePage.toNat ++ toLe 8 last.pageCount.toNat) (by
      rw [List.length_append, toLe_length, toLe_length]
      omega)
  rw [List.length_append, toLe_length, toLe_length] at slot
  obtain ⟨firstPage, firstRead, placed⟩ := full.header.placed
  have signature : rdmpSigned patched := by
    have kind : readU32 data 0x2000 = readU32 patched 0x2000 :=
      readU32_congr_take shared (by omega)
    have name : slice data.bytes 0x2004 0x2008 =
        slice patched.bytes 0x2004 0x2008 :=
      slice_congr_take shared (by omega)
    exact ⟨kind ▸ full.signed.1, name ▸ full.signed.2⟩
  have again : readU64 data 0x2018 = readU64 patched 0x2018 :=
    readU64_congr_take shared (by omega)
  exact ⟨patched, ⟨length, full.signed, signature, firstPage, firstRead,
    again ▸ firstRead, placed ▸ shared⟩, readRun_eq_ok.mpr slot⟩

theorem FullTable.layout_of_end {data : Buffer} {metadataSize : UInt64}
    (full : FullTable data metadataSize) {last : PhysicalRun}
    (read : readRun data (metadataSize.toNat + 0x2020) = .ok last)
    (ends : last.basePage = 0) (source : String) :
    layoutOf (fromRdmpKdmp source data) ≠ none := by
  have large := full.header.large
  have aligned := full.header.aligned
  have within := full.header.within
  have offset : 0x2030 + (0 + (metadataSize.toNat / 16 - 1)) * 16 =
      metadataSize.toNat + 0x2020 := by
    omega
  have slots : metadataSize.toNat / 16 - 1 + 1 = metadataSize.toNat / 16 := by
    omega
  obtain ⟨segments, taken, bounds⟩ := rdmpRanges_full (offset ▸ within)
    full.used full.fits (offset ▸ read) ends
  rw [slots] at taken
  have present : segments ≠ [] := by
    intro same
    subst same
    obtain ⟨run, rest, runs⟩ := full.header.headerRuns_cons
    change _ = (headerRuns data metadataSize).map _ at bounds
    rw [runs, List.map_cons] at bounds
    exact List.cons_ne_nil _ _ bounds.symm
  have arranged := arrange_of_apart "RDMP KDMP physical ranges overlap"
    ((apart_iff_disjoint bounds).mpr full.disjoint)
  have loaded : fromRdmpKdmp source data = .ok
      ⟨⟨"windows-kdmp-rdmp", source⟩, sortByStart segments⟩ :=
    fromRdmpKdmp_eq_ok.mpr ⟨metadataSize, full.header, segments, taken, present,
      arranged, rfl⟩
  rw [layoutOf_eq_some.mpr ⟨_, loaded, rfl⟩]
  exact Option.some_ne_none _

theorem FullTable.layout_of_empty {data : Buffer} {metadataSize : UInt64}
    (full : FullTable data metadataSize) {last : PhysicalRun}
    (read : readRun data (metadataSize.toNat + 0x2020) = .ok last)
    (base : last.basePage ≠ 0) (empty : last.pageCount = 0) (source : String) :
    layoutOf (fromRdmpKdmp source data) = none := by
  rw [Option.eq_none_iff_forall_ne_some]
  intro ranges layout
  obtain ⟨bundle, loaded, _⟩ := layoutOf_eq_some.mp layout
  obtain ⟨again, header, segments, taken, _⟩ := fromRdmpKdmp_eq_ok.mp loaded
  have same := full.header.sizeRead.symm.trans header.sizeRead
  obtain rfl := Except.ok.inj same
  have large := header.large
  have aligned := header.aligned
  have slots : metadataSize.toNat / 16 = metadataSize.toNat / 16 - 1 + 1 := by
    omega
  rw [slots] at taken
  obtain ⟨_, _, _, final, finalRead, ends⟩ := rdmpRanges_continues taken
    header.within fun run member => (full.used run member).base
  have offset : 0x2030 + (0 + (metadataSize.toNat / 16 - 1)) * 16 =
      metadataSize.toNat + 0x2020 := by
    omega
  rw [offset, read] at finalRead
  obtain rfl := Except.ok.inj finalRead
  rcases ends with zero | positive
  · exact base zero
  · rw [empty] at positive
    exact absurd positive (Nat.lt_irrefl 0)

/-- Guest memory has no say in the layout exactly when the table in the header
has a slot to spare, for then it ends before the slot that lies in guest
memory. -/
theorem rdmp_layout_shared_iff (source : String) (data : Buffer) :
    (∀ other, SharesHeader data other →
        layoutOf (fromRdmpKdmp source data) =
          layoutOf (fromRdmpKdmp source other)) ↔
      ¬ ∃ metadataSize, FullTable data metadataSize := by
  constructor
  · rintro independent ⟨metadataSize, full⟩
    obtain ⟨ended, endedShares, endedRead⟩ := full.exists_shared ⟨0, 0⟩
    obtain ⟨broken, brokenShares, brokenRead⟩ := full.exists_shared ⟨1, 0⟩
    have loads := (endedShares.fullTable full).layout_of_end endedRead rfl
      source
    have fails := (brokenShares.fullTable full).layout_of_empty brokenRead
      (by decide) rfl source
    rw [← independent ended endedShares, independent broken brokenShares]
      at loads
    exact loads fails
  · intro spare other shares
    ext ranges
    constructor
    · exact layout_shared shares spare
    · apply layout_shared shares.symm
      intro given
      obtain ⟨metadataSize, full⟩ := given
      exact spare ⟨metadataSize, shares.symm.fullTable full⟩

/-- The header of a dump of one range of one page, with one slot for it. -/
def rdmpHead : List UInt8 :=
  ascii "PAGEDU64" ++ (List.replicate 0x1ff8 0 ++ (toLe 4 0x40 ++
    (ascii "RDMP" ++ (ascii "DUMP" ++ (List.replicate 4 0 ++ (toLe 8 0x20 ++
      (toLe 8 0x2040 ++ (List.replicate 0x10 0 ++
        (toLe 8 2 ++ toLe 8 1)))))))))

/-- The dump with a page that starts like the given entry. -/
def rdmpImage (last : PhysicalRun) : List UInt8 :=
  rdmpHead ++ ((toLe 8 last.basePage.toNat ++ toLe 8 last.pageCount.toNat) ++
    List.replicate 4080 0)

theorem rdmpHead_length : rdmpHead.length = 0x2040 := by
  simp only [rdmpHead, List.length_append, toLe_length, List.length_replicate,
    show (ascii "PAGEDU64").length = 8 by decide,
    show (ascii "RDMP").length = 4 by decide,
    show (ascii "DUMP").length = 4 by decide]

theorem rdmpImage_length (last : PhysicalRun) :
    (rdmpImage last).length = 0x3040 := by
  simp only [rdmpImage, List.length_append, rdmpHead_length, toLe_length,
    List.length_replicate]

theorem rdmpImage_length_lt (last : PhysicalRun) :
    (rdmpImage last).length < 2 ^ 63 := by
  rw [rdmpImage_length]
  decide

def rdmpDump (last : PhysicalRun) : Buffer :=
  ⟨rdmpImage last, rdmpImage_length_lt last⟩

theorem rdmpDump_fullTable (last : PhysicalRun) :
    FullTable (rdmpDump last) 0x20 ∧
      readU64 (rdmpDump last) 0x2018 = .ok 0x2040 ∧
      readRun (rdmpDump last) 0x2040 = .ok last := by
  have whole : slice (rdmpDump last).bytes 0 (rdmpImage last).length =
      some (rdmpImage last) := by
    simp [slice, rdmpDump]
  rw [rdmpImage_length, rdmpImage, slice_eq_append, slice_eq_append,
    rdmpHead_length] at whole
  obtain ⟨head, tail, _⟩ := whole
  simp only [rdmpHead, slice_eq_append, toLe_length, List.length_replicate,
    show (ascii "PAGEDU64").length = 8 by decide,
    show (ascii "RDMP").length = 4 by decide,
    show (ascii "DUMP").length = 4 by decide, Nat.reduceAdd] at head
  obtain ⟨_, _, kind, name, marker, _, size, first, _, base, count⟩ := head
  have firstRead : readU64 (rdmpDump last) 0x2018 = .ok 0x2040 :=
    readU64_eq_ok.mpr first
  have read : readRun (rdmpDump last) (0x2030 + 0 * 16) = .ok ⟨2, 1⟩ :=
    readRun_eq_ok.mpr (slice_eq_append.mpr ⟨base, count⟩)
  have runs : headerRuns (rdmpDump last) 0x20 = [⟨2, 1⟩] := runTable_succ read
  have length : (rdmpDump last).length = 0x3040 := rdmpImage_length last
  refine ⟨⟨⟨readU32_eq_ok.mpr kind, name⟩, ⟨marker, readU64_eq_ok.mpr size,
    by decide, by decide, ⟨0x2040, firstRead, rfl⟩, ?_⟩, ?_, ?_, ?_⟩,
    firstRead, readRun_eq_ok.mpr tail⟩
  · rw [length]
    decide
  · rw [runs]
    intro run member
    obtain rfl := List.mem_singleton.mp member
    exact ⟨by decide, by decide, by decide⟩
  · rw [runs, length]
    decide
  · rw [runs]
    exact List.pairwise_singleton _ _

/-- The first page of a dump is loaded or makes it fail, by what is on it. -/
theorem rdmp_first_page_matters :
    SharesHeader (rdmpDump ⟨0, 0⟩) (rdmpDump ⟨1, 0⟩) ∧
      layoutOf (fromRdmpKdmp "active.dmp" (rdmpDump ⟨0, 0⟩)) ≠ none ∧
      layoutOf (fromRdmpKdmp "active.dmp" (rdmpDump ⟨1, 0⟩)) = none := by
  obtain ⟨ended, endedFirst, endedRead⟩ := rdmpDump_fullTable ⟨0, 0⟩
  obtain ⟨broken, brokenFirst, brokenRead⟩ := rdmpDump_fullTable ⟨1, 0⟩
  refine ⟨⟨?_, ended.signed, broken.signed, 0x2040, endedFirst, brokenFirst,
    ?_⟩, ended.layout_of_end endedRead rfl "active.dmp",
    broken.layout_of_empty brokenRead (by decide) rfl "active.dmp"⟩
  · exact (rdmpImage_length _).trans (rdmpImage_length _).symm
  · exact (List.take_left' rdmpHead_length).trans
      (List.take_left' rdmpHead_length).symm

end LibVmi.Artifact
