import LibVmi.Artifact.Bundle
import LibVmi.Artifact.Fields

namespace LibVmi.Artifact

open Data

/-! Windows AMD64 crash dumps. Three layouts share one header; which of them a
dump has is decided by the bytes that follow the header. -/

/-- A run of physical pages. -/
structure PhysicalRun where
  basePage : UInt64
  pageCount : UInt64
  deriving DecidableEq, Repr

def readRun (data : Buffer) (offset : Nat) : Result PhysicalRun := do
  let basePage ← readU64 data offset
  let pageCount ← readU64 data (← addOffset offset 8)
  return ⟨basePage, pageCount⟩

structure RunMessages where
  address : String
  length : String
  payload : String
  exceeds : String

/-- The segment of a run whose pages start at `payload`, and where they end. -/
def loadRun (messages : RunMessages) (data : Buffer) (run : PhysicalRun)
    (payload : Nat) : Result (SnapshotSegment × Nat) := do
  let gpa ← okOr (checkedMul run.basePage 4096) (.backend messages.address)
  let byteLength ← okOr (checkedMul run.pageCount 4096)
    (.backend messages.length)
  let payloadEnd ← okOr (Usize.checkedAdd payload byteLength.toNat)
    (.backend messages.payload)
  let bytes ← okOr (data.get payload payloadEnd) (.backend messages.exceeds)
  return (.new ⟨gpa⟩ bytes, payloadEnd)

/-! Runs listed in the header. -/

def legacyMessages (index : Nat) : RunMessages where
  address := "KDMP physical address overflow"
  length := "KDMP run length overflow"
  payload := "KDMP payload offset overflow"
  exceeds := s!"KDMP physical run {index} exceeds artifact"

def legacyRuns (data : Buffer) : (remaining index payload : Nat) →
    (actualPages : UInt64) → Result (List SnapshotSegment × UInt64)
  | 0, _, _, actualPages => .ok ([], actualPages)
  | remaining + 1, index, payload, actualPages => do
      let runOffset ← okOr
        ((Usize.checkedMul index 16).bind (Usize.checkedAdd 0x98))
        (.backend "KDMP run-table offset overflow")
      let run ← readRun data runOffset
      rejectIf (run.pageCount = 0)
        (.backend s!"KDMP physical run {index} is empty")
      let actualPages ← okOr (checkedAdd actualPages run.pageCount)
        (.backend "KDMP page count overflow")
      let (segment, payload) ← loadRun (legacyMessages index) data run payload
      let (segments, actualPages) ← legacyRuns data remaining (index + 1)
        payload actualPages
      return (segment :: segments, actualPages)

/-- The part of `from_kdmp` past the other layouts. -/
def fromRunKdmp (source : String) (data : Buffer) : Result SnapshotBundle := do
  let machine ← readU32 data 0x30
  rejectIf (machine ≠ 0x8664)
    (.backend ("unsupported KDMP machine type " ++ hex machine.toNat))
  let runCount ← readU32 data 0x88
  let declaredPages ← readU64 data 0x90
  rejectIf (runCount = 0 ∨ 502 < runCount.toNat)
    (.backend s!"invalid KDMP physical run count {runCount}")
  let (segments, actualPages) ← legacyRuns data runCount.toNat 0 0x2000 0
  rejectIf (actualPages ≠ declaredPages)
    (.backend
      s!"KDMP declares {declaredPages} pages but runs contain {actualPages}")
  let segments ← arrange "KDMP physical memory runs overlap" segments
  return ⟨⟨"windows-kdmp", source⟩, segments⟩

/-! Pages listed in a bitmap, which are in order as they are. -/

def bitmapPages (data bitmap : Buffer) : (remaining pfn payload : Nat) →
    (found : UInt64) → Result (List SnapshotSegment × UInt64)
  | 0, _, _, found => .ok ([], found)
  | remaining + 1, pfn, payload, found => do
      let bitmapByte ← okOr bitmap.bytes[pfn / 8]?
        (.backend "bitmap KDMP PFN exceeds its bitmap")
      if bitmapByte &&& (1 <<< UInt8.ofNat (pfn % 8)) = 0 then
        bitmapPages data bitmap remaining (pfn + 1) payload found
      else do
        let payloadEnd ← okOr (Usize.checkedAdd payload 4096)
          (.backend "bitmap KDMP payload overflow")
        let bytes ← okOr (data.get payload payloadEnd)
          (.backend "bitmap KDMP page exceeds artifact")
        let gpa ← okOr (checkedMul (UInt64.ofNat pfn) 4096)
          (.backend "bitmap KDMP physical address overflow")
        let found ← okOr (checkedAdd found 1)
          (.backend "bitmap KDMP page count overflow")
        let (segments, found) ← bitmapPages data bitmap remaining (pfn + 1)
          payloadEnd found
        return (.new ⟨gpa⟩ bytes :: segments, found)

def fromBitmapKdmp (source : String) (data : Buffer) :
    Result SnapshotBundle := do
  rejectIf (slice data.bytes 0x2004 0x2008 ≠ some (ascii "DUMP"))
    (.backend "invalid bitmap KDMP marker")
  let firstPage ← readU64 data 0x2020
  let present ← readU64 data 0x2028
  let pages ← readU64 data 0x2030
  rejectIf (pages = 0 ∨ pages.toNat < present.toNat)
    (.backend "invalid bitmap KDMP page counts")
  let bitmapLength := (pages.toNat + 7) / 8
  let bitmapEnd ← okOr (Usize.checkedAdd 0x2038 bitmapLength)
    (.backend "bitmap KDMP table range overflow")
  let bitmap ← okOr (data.get 0x2038 bitmapEnd)
    (.backend "truncated bitmap KDMP bitmap")
  rejectIf (firstPage.toNat < bitmapEnd)
    (.backend "bitmap KDMP payload overlaps its bitmap")
  let (segments, found) ← bitmapPages data bitmap pages.toNat 0
    firstPage.toNat 0
  rejectIf (found ≠ present)
    (.backend (s!"bitmap KDMP declares {present} present pages but bitmap " ++
      s!"contains {found}"))
  return ⟨⟨"windows-kdmp-bitmap", source⟩, segments⟩

/-! Ranges listed after the header, up to one that starts at page zero. -/

def rdmpMessages (index : Nat) : RunMessages where
  address := "RDMP KDMP physical address overflow"
  length := "RDMP KDMP range length overflow"
  payload := "RDMP KDMP payload overflow"
  exceeds := s!"RDMP KDMP physical range {index} exceeds artifact"

def rdmpRanges (data : Buffer) : (remaining index payload : Nat) →
    Result (List SnapshotSegment)
  | 0, _, _ => .ok []
  | remaining + 1, index, payload => do
      let offset ← okOr
        ((Usize.checkedMul index 16).bind (Usize.checkedAdd 0x2030))
        (.backend "RDMP KDMP range-table overflow")
      let run ← readRun data offset
      if run.basePage = 0 then
        .ok []
      else do
        rejectIf (run.pageCount = 0)
          (.backend s!"RDMP KDMP physical range {index} is empty")
        let (segment, payload) ← loadRun (rdmpMessages index) data run payload
        let segments ← rdmpRanges data remaining (index + 1) payload
        return segment :: segments

def fromRdmpKdmp (source : String) (data : Buffer) :
    Result SnapshotBundle := do
  rejectIf (slice data.bytes 0x2008 0x200c ≠ some (ascii "DUMP"))
    (.backend "invalid RDMP KDMP marker")
  let metadataSize ← readU64 data 0x2010
  let firstPage ← readU64 data 0x2018
  rejectIf (metadataSize.toNat < 0x20 ∨ metadataSize.toNat % 16 ≠ 0)
    (.backend "invalid RDMP KDMP metadata layout")
  let expected ← okOr (checkedAdd metadataSize 0x2020)
    (.backend "RDMP KDMP metadata offset overflow")
  rejectIf (firstPage ≠ expected)
    (.backend "invalid RDMP KDMP metadata layout")
  rejectIf (data.length < firstPage.toNat)
    (.backend "RDMP KDMP payload exceeds artifact")
  let segments ← rdmpRanges data (metadataSize.toNat / 16) 0 firstPage.toNat
  rejectIf (segments = []) (.backend "RDMP KDMP contains no physical ranges")
  let segments ← arrange "RDMP KDMP physical ranges overlap" segments
  return ⟨⟨"windows-kdmp-rdmp", source⟩, segments⟩

/-! The dispatch. -/

def bitmapSigned (data : Buffer) : Prop :=
  slice data.bytes 0x2000 0x2004 = some (ascii "SDMP") ∨
    slice data.bytes 0x2000 0x2004 = some (ascii "FDMP")

instance (data : Buffer) : Decidable (bitmapSigned data) :=
  inferInstanceAs (Decidable (_ ∨ _))

/-- The `PAGE`/`DU64` header that the layouts share. -/
def notCrashDump (data : Buffer) : Prop :=
  data.length < 0x2000 ∨ ¬ ascii "PAGE" <+: data.bytes ∨
    slice data.bytes 4 8 ≠ some (ascii "DU64")

instance (data : Buffer) : Decidable (notCrashDump data) :=
  inferInstanceAs (Decidable (_ ∨ _))

def fromKdmp (source : String) (data : Buffer) : Result SnapshotBundle := do
  rejectIf (notCrashDump data)
    (.backend "artifact is not a legacy AMD64 PAGE/DU64 crash dump")
  if bitmapSigned data then
    fromBitmapKdmp source data
  else do
    let kind ← readU32 data 0x2000
    if kind = 0x40 ∧ slice data.bytes 0x2004 0x2008 = some (ascii "RDMP") then
      fromRdmpKdmp source data
    else
      fromRunKdmp source data

/-! What the three loops make of their tables. -/

def PhysicalRun.bounds (run : PhysicalRun) : Nat × Nat :=
  (run.basePage.toNat * 4096,
    (run.basePage.toNat + run.pageCount.toNat) * 4096)

def totalLength (segments : List SnapshotSegment) : Nat :=
  (segments.map fun segment => segment.data.length).sum

@[simp] theorem totalLength_cons (segment : SnapshotSegment)
    (segments : List SnapshotSegment) :
    totalLength (segment :: segments) =
      segment.data.length + totalLength segments := rfl

theorem readRun_eq_ok {data : Buffer} {offset : Nat} {run : PhysicalRun} :
    readRun data offset = .ok run ↔
      slice data.bytes offset (offset + 16) =
        some (toLe 8 run.basePage.toNat ++ toLe 8 run.pageCount.toNat) := by
  have whole := data.length_lt_limit
  simp only [readRun, bind_eq_ok, readU64_eq_ok, addOffset_eq_ok, pure_eq_ok,
    Except.ok.injEq, slice_eq_append, toLe_length, and_assoc, exists_eq_left]
  constructor
  · intro given
    obtain ⟨basePage, baseRead, _, pageCount, countRead, rfl⟩ := given
    exact ⟨baseRead, countRead⟩
  · intro given
    obtain ⟨baseRead, countRead⟩ := given
    have bounds := slice_length countRead
    change _ ∧ _ ≤ data.length at bounds
    exact ⟨run.basePage, baseRead, by omega, run.pageCount, countRead, rfl⟩

theorem loadRun_eq_ok {messages : RunMessages} {data : Buffer}
    {run : PhysicalRun} {payload next : Nat} {segment : SnapshotSegment} :
    loadRun messages data run payload = .ok (segment, next) ↔
      slice data.bytes payload next = some segment.data.bytes ∧
        segment.data.length = run.pageCount.toNat * 4096 ∧
        segment.lower = run.basePage.toNat * 4096 := by
  have whole := data.length_lt_limit
  simp only [loadRun, bind_eq_ok, okOr_eq_ok, checkedMul_eq_some,
    Usize.checkedAdd_eq_some, Buffer.get_eq_some, unsigned_toNat_uint64,
    pure_eq_ok, Except.ok.injEq, Prod.mk.injEq, and_assoc, exists_eq_left]
  have page : UInt64.toNat 4096 = 4096 := rfl
  rw [page]
  constructor
  · intro given
    obtain ⟨gpa, gpaEq, byteLength, lengthEq, _, bytes, taken, rfl, rfl⟩
      := given
    have length := slice_length taken
    rw [SnapshotSegment.new_data, SnapshotSegment.new_lower]
    refine ⟨taken, ?_, gpaEq⟩
    change bytes.bytes.length = _
    omega
  · intro given
    obtain ⟨taken, lengthEq, lowerEq⟩ := given
    have length := slice_length taken
    change payload + segment.data.length = _ ∧ _ ≤ data.length at length
    refine ⟨segment.range.start.raw, lowerEq, segment.range.length, ?_, ?_,
      segment.data, ?_, segment.new_self, ?_⟩
    · rw [segment.length_eq, lengthEq]
    · rw [segment.length_eq]
      omega
    · rw [segment.length_eq, length.1]
      exact taken
    · rw [segment.length_eq, length.1]

theorem loadRun_bounds {messages : RunMessages} {data : Buffer}
    {run : PhysicalRun} {payload next : Nat} {segment : SnapshotSegment}
    (loaded : loadRun messages data run payload = .ok (segment, next)) :
    segment.bounds = run.bounds := by
  obtain ⟨_, lengthEq, lowerEq⟩ := loadRun_eq_ok.mp loaded
  rw [SnapshotSegment.bounds, segment.upper_eq, lowerEq, lengthEq,
    PhysicalRun.bounds, Nat.add_mul]

/-- The table entries from `index` on, as far as they can be read. -/
def runTable (data : Buffer) (base index count : Nat) : List PhysicalRun :=
  (List.range' index count).filterMap fun entry =>
    (readRun data (base + entry * 16)).toOption

theorem runTable_succ {data : Buffer} {base index count : Nat}
    {run : PhysicalRun} (read : readRun data (base + index * 16) = .ok run) :
    runTable data base index (count + 1) =
      run :: runTable data base (index + 1) count := by
  rw [runTable, List.range'_succ, List.filterMap_cons_some (b := run)]
  · rfl
  · rw [read]
    rfl

theorem tableOffset_eq_some {base index offset : Nat} :
    (Usize.checkedMul index 16).bind (Usize.checkedAdd base) = some offset ↔
      offset = base + index * 16 ∧ base + index * 16 < Usize.limit := by
  simp only [Option.bind_eq_some_iff, Usize.checkedMul_eq_some,
    Usize.checkedAdd_eq_some]
  constructor
  · intro given
    obtain ⟨_, ⟨rfl, _⟩, rfl, bound⟩ := given
    exact ⟨rfl, bound⟩
  · intro given
    obtain ⟨rfl, bound⟩ := given
    exact ⟨_, ⟨rfl, by omega⟩, rfl, bound⟩

theorem legacyRuns_step {data : Buffer} {remaining index payload : Nat}
    {actualPages total : UInt64} {segments : List SnapshotSegment} :
    legacyRuns data (remaining + 1) index payload actualPages =
        .ok (segments, total) ↔
      ∃ run, readRun data (0x98 + index * 16) = .ok run ∧
        0 < run.pageCount.toNat ∧
      ∃ pages : UInt64,
        pages.toNat = actualPages.toNat + run.pageCount.toNat ∧
      ∃ segment next,
        loadRun (legacyMessages index) data run payload =
          .ok (segment, next) ∧
      ∃ rest, legacyRuns data remaining (index + 1) next pages =
          .ok (rest, total) ∧ segments = segment :: rest := by
  have whole := data.length_lt_limit
  simp only [legacyRuns, bind_eq_ok, okOr_eq_ok, rejectIf_eq_ok,
    tableOffset_eq_some, checkedAdd_eq_some, unsigned_toNat_uint64,
    pure_eq_ok, Except.ok.injEq, Prod.mk.injEq, Prod.exists, and_assoc,
    exists_and_left, exists_eq_left, exists_const]
  constructor
  · intro given
    obtain ⟨_, run, read, positive, pages, pagesEq, segment, next, loaded,
      rest, _, restLoaded, rfl, rfl⟩ := given
    refine ⟨run, read, ?_, pages, pagesEq, segment, next, loaded, rest,
      restLoaded, rfl⟩
    rw [← UInt64.toNat_inj] at positive
    exact Nat.pos_of_ne_zero positive
  · intro given
    obtain ⟨run, read, positive, pages, pagesEq, segment, next, loaded, rest,
      restLoaded, rfl⟩ := given
    have bounds := slice_length (readRun_eq_ok.mp read)
    change _ ∧ _ ≤ data.length at bounds
    refine ⟨by omega, run, read, ?_, pages, pagesEq, segment, next, loaded,
      rest, total, restLoaded, rfl, rfl⟩
    intro zero
    rw [zero] at positive
    exact absurd positive (Nat.lt_irrefl 0)

theorem legacyRuns_table {data : Buffer} {remaining index payload : Nat}
    {actualPages total : UInt64} {segments : List SnapshotSegment}
    (loaded : legacyRuns data remaining index payload actualPages =
      .ok (segments, total)) :
    segments.map SnapshotSegment.bounds =
        (runTable data 0x98 index remaining).map PhysicalRun.bounds ∧
      ∀ segment ∈ segments, 0 < segment.data.length := by
  induction remaining generalizing index payload actualPages segments with
  | zero =>
      simp only [legacyRuns, Except.ok.injEq, Prod.mk.injEq] at loaded
      obtain ⟨rfl, _⟩ := loaded
      simp [runTable]
  | succ remaining induction =>
      obtain ⟨run, read, positive, pages, _, segment, next, segmentLoaded, rest,
        restLoaded, rfl⟩ := legacyRuns_step.mp loaded
      obtain ⟨restTable, restNonempty⟩ := induction restLoaded
      obtain ⟨_, lengthEq, _⟩ := loadRun_eq_ok.mp segmentLoaded
      refine ⟨?_, ?_⟩
      · rw [runTable_succ read, List.map_cons, List.map_cons, restTable,
          loadRun_bounds segmentLoaded]
      · intro other member
        cases List.mem_cons.mp member with
        | inl same =>
            subst same
            omega
        | inr inRest => exact restNonempty other inRest

/-- The ranges up to the one that ends the table. -/
def rangeTable (data : Buffer) (index count : Nat) : List PhysicalRun :=
  (runTable data 0x2030 index count).takeWhile fun run => run.basePage ≠ 0

theorem rdmpRanges_step {data : Buffer} {remaining index payload : Nat}
    {segments : List SnapshotSegment} :
    rdmpRanges data (remaining + 1) index payload = .ok segments ↔
      ∃ run, readRun data (0x2030 + index * 16) = .ok run ∧
        (run.basePage = 0 ∧ segments = [] ∨
          run.basePage ≠ 0 ∧ 0 < run.pageCount.toNat ∧
          ∃ segment next,
            loadRun (rdmpMessages index) data run payload =
              .ok (segment, next) ∧
          ∃ rest, rdmpRanges data remaining (index + 1) next = .ok rest ∧
            segments = segment :: rest) := by
  have whole := data.length_lt_limit
  simp only [rdmpRanges, bind_eq_ok, okOr_eq_ok, tableOffset_eq_some,
    and_assoc, exists_eq_left]
  have positive_iff (run : PhysicalRun) :
      ¬ run.pageCount = 0 ↔ 0 < run.pageCount.toNat := by
    rw [← UInt64.toNat_inj]
    exact Nat.pos_iff_ne_zero.symm
  constructor
  · intro given
    obtain ⟨_, run, read, loaded⟩ := given
    refine ⟨run, read, ?_⟩
    by_cases last : run.basePage = 0
    · rw [if_pos last, Except.ok.injEq] at loaded
      exact .inl ⟨last, loaded.symm⟩
    · rw [if_neg last] at loaded
      simp only [bind_eq_ok, rejectIf_eq_ok, pure_eq_ok, Except.ok.injEq,
        Prod.exists, exists_and_left, exists_const, positive_iff] at loaded
      obtain ⟨positive, segment, next, segmentLoaded, rest, restLoaded, rfl⟩ :=
        loaded
      exact .inr ⟨last, positive, segment, next, segmentLoaded, rest,
        restLoaded, rfl⟩
  · intro given
    obtain ⟨run, read, loaded⟩ := given
    have bounds := slice_length (readRun_eq_ok.mp read)
    change _ ∧ _ ≤ data.length at bounds
    refine ⟨by omega, run, read, ?_⟩
    rcases loaded with ⟨last, rfl⟩ | ⟨more, positive, segment, next,
      segmentLoaded, rest, restLoaded, rfl⟩
    · rw [if_pos last]
    · rw [if_neg more]
      simp only [bind_eq_ok, rejectIf_eq_ok, pure_eq_ok, Except.ok.injEq,
        Prod.exists, exists_and_left, exists_const, positive_iff]
      exact ⟨positive, segment, next, segmentLoaded, rest, restLoaded, rfl⟩

theorem rdmpRanges_table {data : Buffer} {remaining index payload : Nat}
    {segments : List SnapshotSegment}
    (loaded : rdmpRanges data remaining index payload = .ok segments) :
    segments.map SnapshotSegment.bounds =
        (rangeTable data index remaining).map PhysicalRun.bounds ∧
      ∀ segment ∈ segments, 0 < segment.data.length := by
  induction remaining generalizing index payload segments with
  | zero =>
      simp only [rdmpRanges, Except.ok.injEq] at loaded
      subst loaded
      simp [rangeTable, runTable]
  | succ remaining induction =>
      obtain ⟨run, read, ⟨last, rfl⟩ | ⟨more, positive, segment, next,
        segmentLoaded, rest, restLoaded, rfl⟩⟩ := rdmpRanges_step.mp loaded
      · rw [rangeTable, runTable_succ read,
          List.takeWhile_cons_of_neg (by simp [last])]
        simp
      · obtain ⟨restTable, restNonempty⟩ := induction restLoaded
        obtain ⟨_, lengthEq, _⟩ := loadRun_eq_ok.mp segmentLoaded
        refine ⟨?_, ?_⟩
        · rw [rangeTable, runTable_succ read,
            List.takeWhile_cons_of_pos (by simp [more]), List.map_cons,
            List.map_cons, restTable, loadRun_bounds segmentLoaded]
          rfl
        · intro other member
          cases List.mem_cons.mp member with
          | inl same =>
              subst same
              omega
          | inr inRest => exact restNonempty other inRest

theorem bitmapPages_step {data bitmap : Buffer}
    {remaining pfn payload : Nat} {found total : UInt64}
    {segments : List SnapshotSegment}
    (loaded : bitmapPages data bitmap (remaining + 1) pfn payload found =
      .ok (segments, total)) (bound : pfn < 2 ^ 64) :
    bitmapPages data bitmap remaining (pfn + 1) payload found =
        .ok (segments, total) ∨
      ∃ segment : SnapshotSegment,
        slice data.bytes payload (payload + 4096) =
          some segment.data.bytes ∧
        segment.lower = pfn * 4096 ∧
      ∃ pages rest, bitmapPages data bitmap remaining (pfn + 1)
          (payload + 4096) pages = .ok (rest, total) ∧
        segments = segment :: rest := by
  rw [bitmapPages] at loaded
  obtain ⟨bitmapByte, _, loaded⟩ := bind_eq_ok.mp loaded
  by_cases absent : bitmapByte &&& (1 <<< UInt8.ofNat (pfn % 8)) = 0
  · rw [if_pos absent] at loaded
    exact .inl loaded
  · rw [if_neg absent] at loaded
    simp only [bind_eq_ok, okOr_eq_ok, Usize.checkedAdd_eq_some,
      Buffer.get_eq_some, checkedMul_eq_some, checkedAdd_eq_some,
      unsigned_toNat_uint64, pure_eq_ok, Except.ok.injEq, Prod.mk.injEq,
      Prod.exists, and_assoc, exists_eq_left] at loaded
    obtain ⟨_, bytes, taken, gpa, gpaEq, pages, _, rest, _, restLoaded, rfl,
      rfl⟩ := loaded
    refine .inr ⟨.new ⟨gpa⟩ bytes, taken, ?_, pages, rest, restLoaded, rfl⟩
    rw [SnapshotSegment.new_lower, gpaEq, UInt64.toNat_ofNat_of_lt' bound]
    rfl

/-- Pages come out in the order of their numbers. -/
theorem bitmapPages_ordered {data bitmap : Buffer}
    {remaining pfn payload : Nat} {found total : UInt64}
    {segments : List SnapshotSegment}
    (loaded : bitmapPages data bitmap remaining pfn payload found =
      .ok (segments, total)) (bound : pfn + remaining ≤ 2 ^ 64) :
    Disjoint segments ∧ ∀ segment ∈ segments,
      segment.data.length = 4096 ∧ pfn * 4096 ≤ segment.lower ∧
        segment.lower % 4096 = 0 := by
  induction remaining generalizing pfn payload found segments with
  | zero =>
      simp only [bitmapPages, Except.ok.injEq, Prod.mk.injEq] at loaded
      obtain ⟨rfl, _⟩ := loaded
      simp [Disjoint]
  | succ remaining induction =>
      have weaken {bound : Nat} (after : (pfn + 1) * 4096 ≤ bound) :
          pfn * 4096 ≤ bound :=
        Nat.le_trans (Nat.mul_le_mul_right 4096 (Nat.le_succ pfn)) after
      cases bitmapPages_step loaded (by omega) with
      | inl skipped =>
          obtain ⟨disjoint, each⟩ := induction skipped (by omega)
          refine ⟨disjoint, ?_⟩
          intro segment member
          obtain ⟨lengthEq, after, aligned⟩ := each segment member
          exact ⟨lengthEq, weaken after, aligned⟩
      | inr present =>
          obtain ⟨segment, taken, lowerEq, pages, rest, restLoaded, rfl⟩ :=
            present
          obtain ⟨disjoint, each⟩ := induction restLoaded (by omega)
          have length := slice_length taken
          change payload + segment.data.length = _ ∧ _ at length
          have upperEq := segment.upper_eq
          refine ⟨List.pairwise_cons.mpr ⟨?_, disjoint⟩, ?_⟩
          · intro other member
            obtain ⟨_, after, _⟩ := each other member
            simp only [Intervals.Before]
            omega
          · intro other member
            cases List.mem_cons.mp member with
            | inl same =>
                subst same
                omega
            | inr inRest =>
                obtain ⟨lengthEq, after, aligned⟩ := each other inRest
                exact ⟨lengthEq, weaken after, aligned⟩

/-! Every loop takes its segments one after the other from the payload. -/

theorem bitmapPages_payload {data bitmap : Buffer}
    {remaining pfn payload : Nat} {found total : UInt64}
    {segments : List SnapshotSegment}
    (loaded : bitmapPages data bitmap remaining pfn payload found =
      .ok (segments, total)) (bound : pfn + remaining ≤ 2 ^ 64) :
    payload + totalLength segments ≤ max payload data.length := by
  induction remaining generalizing pfn payload found segments with
  | zero =>
      simp only [bitmapPages, Except.ok.injEq, Prod.mk.injEq] at loaded
      obtain ⟨rfl, _⟩ := loaded
      exact Nat.le_max_left _ _
  | succ remaining induction =>
      cases bitmapPages_step loaded (by omega) with
      | inl skipped => exact induction skipped (by omega)
      | inr present =>
          obtain ⟨segment, taken, _, pages, rest, restLoaded, rfl⟩ := present
          have rest := induction restLoaded (by omega)
          have length := slice_length taken
          change payload + segment.data.length = _ ∧ _ ≤ data.length at length
          rw [totalLength_cons]
          omega

theorem rdmpRanges_payload {data : Buffer} {remaining index payload : Nat}
    {segments : List SnapshotSegment}
    (loaded : rdmpRanges data remaining index payload = .ok segments) :
    payload + totalLength segments ≤ max payload data.length := by
  induction remaining generalizing index payload segments with
  | zero =>
      simp only [rdmpRanges, Except.ok.injEq] at loaded
      subst loaded
      exact Nat.le_max_left _ _
  | succ remaining induction =>
      obtain ⟨run, read, ⟨last, rfl⟩ | ⟨more, positive, segment, next,
        segmentLoaded, rest, restLoaded, rfl⟩⟩ := rdmpRanges_step.mp loaded
      · exact Nat.le_max_left _ _
      · have rest := induction restLoaded
        have length := slice_length (loadRun_eq_ok.mp segmentLoaded).1
        change payload + segment.data.length = _ ∧ _ ≤ data.length at length
        rw [totalLength_cons]
        omega

/-! Loaded dumps, layout by layout. -/

def rdmpSigned (data : Buffer) : Prop :=
  readU32 data 0x2000 = .ok 0x40 ∧
    slice data.bytes 0x2004 0x2008 = some (ascii "RDMP")

instance (data : Buffer) : Decidable (rdmpSigned data) :=
  inferInstanceAs (Decidable (_ ∧ _))

theorem fromKdmp_eq_ok {source : String} {data : Buffer}
    {bundle : SnapshotBundle} :
    fromKdmp source data = .ok bundle ↔
      ¬ notCrashDump data ∧
        (bitmapSigned data ∧ fromBitmapKdmp source data = .ok bundle ∨
          ¬ bitmapSigned data ∧ rdmpSigned data ∧
            fromRdmpKdmp source data = .ok bundle ∨
          ¬ bitmapSigned data ∧ ¬ rdmpSigned data ∧
            (∃ kind, readU32 data 0x2000 = .ok kind) ∧
            fromRunKdmp source data = .ok bundle) := by
  simp only [fromKdmp, bind_eq_ok, rejectIf_eq_ok, exists_and_left,
    exists_const]
  refine and_congr_right fun _ => ?_
  by_cases bitmap : bitmapSigned data
  · simp [bitmap]
  · rw [if_neg bitmap]
    simp only [bitmap, false_and, not_false_eq_true, true_and, false_or,
      bind_eq_ok, rdmpSigned]
    cases read : readU32 data 0x2000 with
    | error error => simp
    | ok kind =>
        simp only [Except.ok.injEq, exists_eq_left', exists_eq', true_and]
        by_cases ranges : kind = 0x40 ∧
            slice data.bytes 0x2004 0x2008 = some (ascii "RDMP")
        · rw [if_pos ranges]
          simp [ranges]
        · rw [if_neg ranges]
          simp [ranges]

theorem fromRunKdmp_eq_ok {source : String} {data : Buffer}
    {bundle : SnapshotBundle} :
    fromRunKdmp source data = .ok bundle ↔
      readU32 data 0x30 = .ok 0x8664 ∧
      ∃ runCount, readU32 data 0x88 = .ok runCount ∧
      ∃ declaredPages, readU64 data 0x90 = .ok declaredPages ∧
      ¬ (runCount = 0 ∨ 502 < runCount.toNat) ∧
      ∃ segments, legacyRuns data runCount.toNat 0 0x2000 0 =
          .ok (segments, declaredPages) ∧
        arrange "KDMP physical memory runs overlap" segments =
          .ok bundle.segments ∧
        bundle.provenance = ⟨"windows-kdmp", source⟩ := by
  simp only [fromRunKdmp, bind_eq_ok, rejectIf_eq_ok, pure_eq_ok,
    Except.ok.injEq, Prod.exists, exists_and_left, exists_const, ne_eq,
    not_not]
  constructor
  · intro given
    obtain ⟨_, machine, rfl, runCount, countRead, declaredPages, totalRead,
      bounded, segments, _, loaded, rfl, sorted, arranged, rfl⟩ := given
    exact ⟨machine, runCount, countRead, _, totalRead, bounded, segments,
      loaded, arranged, rfl⟩
  · intro given
    obtain ⟨machine, runCount, countRead, declaredPages, totalRead, bounded,
      segments, loaded, arranged, provenance⟩ := given
    exact ⟨_, machine, rfl, runCount, countRead, declaredPages, totalRead,
      bounded, segments, _, loaded, rfl, _, arranged, by rw [← provenance]⟩

/-- What a loaded range dump says of its payload and its table. -/
theorem fromRdmpKdmp_segments {source : String} {data : Buffer}
    {bundle : SnapshotBundle}
    (loaded : fromRdmpKdmp source data = .ok bundle) :
    ∃ metadataSize, readU64 data 0x2010 = .ok metadataSize ∧
      ∃ segments, rdmpRanges data (metadataSize.toNat / 16) 0
          (metadataSize.toNat + 0x2020) = .ok segments ∧
        arrange "RDMP KDMP physical ranges overlap" segments =
          .ok bundle.segments := by
  simp only [fromRdmpKdmp, bind_eq_ok, okOr_eq_ok, rejectIf_eq_ok,
    checkedAdd_eq_some, unsigned_toNat_uint64, pure_eq_ok, Except.ok.injEq,
    exists_and_left, exists_const, ne_eq, not_not] at loaded
  obtain ⟨_, metadataSize, sizeRead, firstPage, _, _, _, expected, rfl, _,
    segments, segmentsLoaded, _, sorted, arranged, rfl⟩ := loaded
  refine ⟨metadataSize, sizeRead, segments, ?_, arranged⟩
  rw [expected] at segmentsLoaded
  exact segmentsLoaded

theorem fromBitmapKdmp_segments {source : String} {data : Buffer}
    {bundle : SnapshotBundle}
    (loaded : fromBitmapKdmp source data = .ok bundle) :
    ∃ bitmap pages payload total, pages < 2 ^ 64 ∧ 0x2038 ≤ payload ∧
      bitmapPages data bitmap pages 0 payload 0 =
        .ok (bundle.segments, total) := by
  simp only [fromBitmapKdmp, bind_eq_ok, okOr_eq_ok, rejectIf_eq_ok,
    Usize.checkedAdd_eq_some, pure_eq_ok, Except.ok.injEq, Prod.exists,
    exists_and_left, exists_const, and_assoc, exists_eq_left, Nat.not_lt]
    at loaded
  obtain ⟨_, firstPage, _, present, _, pages, _, _, _, bitmap, _, after,
    segments, found, segmentsLoaded, _, rfl⟩ := loaded
  exact ⟨bitmap, pages.toNat, firstPage.toNat, found, pages.toNat_lt,
    by omega, segmentsLoaded⟩

end LibVmi.Artifact
