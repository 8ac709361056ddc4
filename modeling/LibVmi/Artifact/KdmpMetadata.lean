import LibVmi.Artifact.Files
import LibVmi.Artifact.KdmpImage

namespace LibVmi.Artifact

open Data

/-! The header of a crash dump, parsed on its own. -/

structure BugcheckParameters where
  first : UInt64
  second : UInt64
  third : UInt64
  fourth : UInt64
  deriving DecidableEq, Repr

structure KdmpMetadata where
  majorVersion : UInt32
  minorVersion : UInt32
  directoryTableBase : UInt64
  pfnDatabase : UInt64
  loadedModuleList : UInt64
  activeProcessHead : UInt64
  machineType : UInt32
  processorCount : UInt32
  bugcheckCode : UInt32
  bugcheckParameters : BugcheckParameters
  debuggerDataBlock : UInt64
  deriving DecidableEq, Repr

def readBugcheckParameters (data : Buffer) : Result BugcheckParameters := do
  let first ← readU64 data 0x40
  let second ← readU64 data 0x48
  let third ← readU64 data 0x50
  let fourth ← readU64 data 0x58
  return ⟨first, second, third, fourth⟩

namespace KdmpMetadata

def parse (data : Buffer) : Result KdmpMetadata := do
  rejectIf (notCrashDump data)
    (.backend "artifact is not a legacy AMD64 PAGE/DU64 crash dump")
  let machineType ← readU32 data 0x30
  rejectIf (machineType ≠ 0x8664)
    (.backend ("unsupported KDMP machine type " ++ hex machineType.toNat))
  let majorVersion ← readU32 data 0x08
  let minorVersion ← readU32 data 0x0c
  let directoryTableBase ← readU64 data 0x10
  let pfnDatabase ← readU64 data 0x18
  let loadedModuleList ← readU64 data 0x20
  let activeProcessHead ← readU64 data 0x28
  let processorCount ← readU32 data 0x34
  let bugcheckCode ← readU32 data 0x38
  let bugcheckParameters ← readBugcheckParameters data
  let debuggerDataBlock ← readU64 data 0x80
  return { majorVersion, minorVersion, directoryTableBase, pfnDatabase,
           loadedModuleList, activeProcessHead, machineType, processorCount,
           bugcheckCode, bugcheckParameters, debuggerDataBlock }

theorem parse_machine {data : Buffer} {metadata : KdmpMetadata}
    (parsed : parse data = .ok metadata) :
    readU32 data 0x30 = .ok metadata.machineType := by
  simp only [parse, bind_eq_ok, rejectIf_eq_ok, pure_eq_ok, Except.ok.injEq,
    exists_and_left, exists_const] at parsed
  obtain ⟨_, machineType, read, _, _, _, _, _, _, _, _, _, _, _, _, _, _, _, _,
    _, _, _, _, _, _, rfl⟩ := parsed
  exact read

/-- A header that passes both checks has all its fields. -/
theorem parse_exists {data : Buffer} (headed : ¬ notCrashDump data)
    (machine : readU32 data 0x30 = .ok 0x8664) :
    ∃ metadata, parse data = .ok metadata ∧ metadata.machineType = 0x8664 := by
  have long : 0x2000 ≤ data.length :=
    Nat.not_lt.mp fun short => headed (.inl short)
  have field32 (offset : Nat) (within : offset + 4 ≤ 0x2000) :=
    readU32_of_within (Nat.le_trans within long)
  have field64 (offset : Nat) (within : offset + 8 ≤ 0x2000) :=
    readU64_of_within (Nat.le_trans within long)
  obtain ⟨_, majorVersion⟩ := field32 0x08 (by decide)
  obtain ⟨_, minorVersion⟩ := field32 0x0c (by decide)
  obtain ⟨_, directoryTableBase⟩ := field64 0x10 (by decide)
  obtain ⟨_, pfnDatabase⟩ := field64 0x18 (by decide)
  obtain ⟨_, loadedModuleList⟩ := field64 0x20 (by decide)
  obtain ⟨_, activeProcessHead⟩ := field64 0x28 (by decide)
  obtain ⟨_, processorCount⟩ := field32 0x34 (by decide)
  obtain ⟨_, bugcheckCode⟩ := field32 0x38 (by decide)
  obtain ⟨_, first⟩ := field64 0x40 (by decide)
  obtain ⟨_, second⟩ := field64 0x48 (by decide)
  obtain ⟨_, third⟩ := field64 0x50 (by decide)
  obtain ⟨_, fourth⟩ := field64 0x58 (by decide)
  obtain ⟨_, debuggerDataBlock⟩ := field64 0x80 (by decide)
  have parsed : ∃ metadata, parse data = .ok metadata := by
    simp only [parse, readBugcheckParameters, rejectIf_neg headed, machine,
      majorVersion, minorVersion, directoryTableBase, pfnDatabase,
      loadedModuleList, activeProcessHead, processorCount, bugcheckCode, first,
      second, third, fourth, debuggerDataBlock, ok_bind, pure_eq_ok, ne_eq,
      not_true_eq_false, not_false_eq_true, rejectIf_neg]
    exact ⟨_, rfl⟩
  obtain ⟨metadata, parsed⟩ := parsed
  have same := (parse_machine parsed).symm.trans machine
  exact ⟨metadata, parsed, Except.ok.inj same⟩

theorem notCrashDump_congr {left right : Buffer}
    (shared : left.bytes.take 0x2000 = right.bytes.take 0x2000) :
    notCrashDump left ↔ notCrashDump right := by
  have lengths := congrArg List.length shared
  rw [List.length_take, List.length_take] at lengths
  change min _ left.length = min _ right.length at lengths
  have short : left.length < 0x2000 ↔ right.length < 0x2000 := by omega
  have starts (data : Buffer) :
      ascii "PAGE" <+: data.bytes ↔
        ascii "PAGE" <+: data.bytes.take 0x2000 := by
    rw [List.prefix_take_iff]
    exact (and_iff_left (by decide)).symm
  rw [notCrashDump, notCrashDump, short, starts left, starts right, shared,
    slice_congr_take shared (by decide)]

/-- The header is all that is parsed. -/
theorem parse_congr {left right : Buffer}
    (shared : left.bytes.take 0x2000 = right.bytes.take 0x2000) :
    parse left = parse right := by
  have field32 (offset : Nat) (within : offset + 4 ≤ 0x2000) :=
    readU32_congr_take shared within
  have field64 (offset : Nat) (within : offset + 8 ≤ 0x2000) :=
    readU64_congr_take shared within
  have bugcheck : readBugcheckParameters left =
      readBugcheckParameters right := by
    simp only [readBugcheckParameters, field64 0x40 (by decide),
      field64 0x48 (by decide), field64 0x50 (by decide),
      field64 0x58 (by decide)]
  simp only [parse, notCrashDump_congr shared, bugcheck,
    field32 0x30 (by decide), field32 0x08 (by decide),
    field32 0x0c (by decide), field64 0x10 (by decide),
    field64 0x18 (by decide), field64 0x20 (by decide),
    field64 0x28 (by decide), field32 0x34 (by decide),
    field32 0x38 (by decide), field64 0x80 (by decide)]

theorem parse_first (data : Buffer) :
    parse (data.first 0x2000) = parse data :=
  parse_congr (List.take_take.trans (by rw [Nat.min_self]))

def fromFile (host : Host) (path : String) : Result KdmpMetadata := do
  let data ← readFilePrefix host path 0x2000
  parse data

/-- Reading the header of a file is parsing the file. -/
theorem fromFile_holds {host : Host} {path : String} {file : File}
    (opened : host.openFile (Path.parse path) = .ok file) {contents : Buffer}
    (holds : file.Holds contents) :
    fromFile host path = parse contents := by
  rw [fromFile, readFilePrefix_holds opened holds (by decide), ok_bind,
    parse_first]

end KdmpMetadata

/-- The header parser accepts the dump and its first bytes alike, as a dump of
an AMD64 machine. -/
def HeaderAccepted (data : Buffer) : Prop :=
  ∃ metadata, KdmpMetadata.parse data = .ok metadata ∧
    KdmpMetadata.parse (data.first 0x2000) = .ok metadata ∧
    metadata.machineType = 0x8664

theorem headerAccepted_of_machine {data : Buffer}
    (headed : ¬ notCrashDump data)
    (machine : readU32 data 0x30 = .ok 0x8664) : HeaderAccepted data := by
  obtain ⟨metadata, parsed, named⟩ := KdmpMetadata.parse_exists headed machine
  exact ⟨metadata, parsed, (KdmpMetadata.parse_first data).trans parsed, named⟩

/-- Only the layout with its runs in the header is checked for its machine: a
dump that is loaded has an acceptable header exactly when it names the machine
itself. -/
theorem kdmp_headers_agree_iff {source : String} {data : Buffer}
    {bundle : SnapshotBundle} (loaded : fromKdmp source data = .ok bundle) :
    HeaderAccepted data ↔ readU32 data 0x30 = .ok 0x8664 := by
  constructor
  · intro given
    obtain ⟨metadata, parsed, _, machine⟩ := given
    rw [KdmpMetadata.parse_machine parsed, machine]
  · exact headerAccepted_of_machine (fromKdmp_eq_ok.mp loaded).1

/-- Dumps of the first layout are never in question. -/
theorem runs_header_accepted {source : String} {data : Buffer}
    {bundle : SnapshotBundle} (loaded : fromKdmp source data = .ok bundle)
    (bitmap : ¬ bitmapSigned data) (ranges : ¬ rdmpSigned data) :
    HeaderAccepted data := by
  obtain ⟨headed, ⟨signed, _⟩ | ⟨_, signed, _⟩ | ⟨_, _, _, runs⟩⟩ :=
    fromKdmp_eq_ok.mp loaded
  · exact absurd signed bitmap
  · exact absurd signed ranges
  · exact headerAccepted_of_machine headed (fromRunKdmp_eq_ok.mp runs).1

/-- A dump of one zero page listed in a bitmap, of the given machine. -/
def bitmapImage (machine : Nat) : List UInt8 :=
  ascii "PAGEDU64" ++ (List.replicate 0x28 0 ++ (toLe 4 machine ++
    (List.replicate 0x1fcc 0 ++ (ascii "SDMPDUMP" ++
      (List.replicate 0x18 0 ++ (toLe 8 0x2039 ++ (toLe 8 1 ++ (toLe 8 1 ++
        1 :: List.replicate 4096 0))))))))

theorem bitmapImage_length (machine : Nat) :
    (bitmapImage machine).length = 0x3039 := by
  simp only [bitmapImage, List.length_append, List.length_cons, toLe_length,
    List.length_replicate, show (ascii "PAGEDU64").length = 8 by decide,
    show (ascii "SDMPDUMP").length = 8 by decide]

theorem bitmapImage_length_lt (machine : Nat) :
    (bitmapImage machine).length < 2 ^ 63 := by
  rw [bitmapImage_length]
  decide

def bitmapDump (machine : Nat) : Buffer :=
  ⟨bitmapImage machine, bitmapImage_length_lt machine⟩

/-- A dump whose bitmap lists the first page and no other. -/
structure SinglePage (data bitmap page : Buffer) : Prop where
  marker : slice data.bytes 0x2004 0x2008 = some (ascii "DUMP")
  first : readU64 data 0x2020 = .ok 0x2039
  present : readU64 data 0x2028 = .ok 1
  pages : readU64 data 0x2030 = .ok 1
  bitmapRead : data.get 0x2038 0x2039 = some bitmap
  listed : bitmap.bytes[0]? = some 1
  pageRead : data.get 0x2039 0x3039 = some page

theorem SinglePage.loaded {data bitmap page : Buffer}
    (single : SinglePage data bitmap page) (source : String) :
    fromBitmapKdmp source data =
      .ok ⟨⟨"windows-kdmp-bitmap", source⟩, [.new ⟨0⟩ page]⟩ := by
  have stop : Usize.checkedAdd 0x2039 4096 = some 0x3039 := by decide
  have placed : checkedMul (UInt64.ofNat 0) 4096 = some 0 := by decide
  have counted : checkedAdd (0 : UInt64) 1 = some 1 := by decide
  have paged : bitmapPages data bitmap 1 0 0x2039 0 =
      .ok ([.new ⟨0⟩ page], 1) := by
    rw [bitmapPages, Nat.zero_div, single.listed, okOr_some, ok_bind,
      if_neg (by decide), stop, okOr_some, ok_bind, single.pageRead, okOr_some,
      ok_bind, placed, okOr_some, ok_bind, counted]
    rfl
  have tableEnd : Usize.checkedAdd 0x2038 ((UInt64.toNat 1 + 7) / 8) =
      some 0x2039 := by decide
  have pageCount : UInt64.toNat 1 = 1 := rfl
  have firstPage : UInt64.toNat 0x2039 = 0x2039 := rfl
  simp only [fromBitmapKdmp, single.first, single.present, single.pages, ok_bind]
  rw [rejectIf_neg (not_not.mpr single.marker), ok_bind,
    rejectIf_neg (by decide), ok_bind, tableEnd, okOr_some, ok_bind,
    single.bitmapRead, okOr_some, ok_bind, rejectIf_neg (by decide), ok_bind,
    pageCount, firstPage, paged, ok_bind, rejectIf_neg (not_not.mpr rfl),
    ok_bind]
  rfl

/-- The dump is loaded whatever machine it names. -/
theorem bitmapDump_loads (machine : Nat) :
    (∃ bundle, fromKdmp "memory.dmp" (bitmapDump machine) = .ok bundle) ∧
      slice (bitmapDump machine).bytes 0x30 0x34 =
        some (toLe 4 machine) := by
  have whole : slice (bitmapDump machine).bytes 0 (bitmapImage machine).length =
      some (bitmapImage machine) := by
    simp [slice, bitmapDump]
  rw [bitmapImage_length, bitmapImage,
    show ascii "PAGEDU64" = ascii "PAGE" ++ ascii "DU64" by decide,
    show ascii "SDMPDUMP" = ascii "SDMP" ++ ascii "DUMP" by decide,
    ← List.singleton_append] at whole
  have length : (bitmapDump machine).length = 0x3039 :=
    bitmapImage_length machine
  generalize bitmapDump machine = data at whole length ⊢
  simp only [slice_eq_append, toLe_length, List.length_replicate,
    List.length_append, List.length_singleton,
    show (ascii "PAGE").length = 4 by decide,
    show (ascii "DU64").length = 4 by decide,
    show (ascii "SDMP").length = 4 by decide,
    show (ascii "DUMP").length = 4 by decide, Nat.reduceAdd] at whole
  obtain ⟨⟨start, kind⟩, _, named, _, ⟨signature, marker⟩, _, first, present,
    pages, bitmap, payload⟩ := whole
  have single : SinglePage data ⟨[1], by decide⟩
      ⟨List.replicate 4096 0, by rw [List.length_replicate]; decide⟩ :=
    ⟨marker, readU64_eq_ok.mpr first, readU64_eq_ok.mpr present,
      readU64_eq_ok.mpr pages, Buffer.get_eq_some.mpr bitmap, rfl,
      Buffer.get_eq_some.mpr payload⟩
  refine ⟨⟨_, fromKdmp_eq_ok.mpr ⟨?_, .inl ⟨.inl signature,
    single.loaded "memory.dmp"⟩⟩⟩, named⟩
  rintro (short | unsigned | unnamed)
  · omega
  · obtain ⟨before, after, split, empty, _⟩ := slice_eq_some.mp start
    rw [List.length_eq_zero_iff] at empty
    rw [empty, List.nil_append] at split
    exact unsigned ⟨after, split.symm⟩
  · exact unnamed kind

theorem kdmp_arm64_bitmap_unparsed :
    (∃ bundle, fromKdmp "memory.dmp" (bitmapDump 0xaa64) = .ok bundle) ∧
      ¬ HeaderAccepted (bitmapDump 0xaa64) := by
  obtain ⟨loaded, named⟩ := bitmapDump_loads 0xaa64
  refine ⟨loaded, ?_⟩
  intro given
  obtain ⟨metadata, parsed, _, machine⟩ := given
  have read : readU32 (bitmapDump 0xaa64) 0x30 = .ok 0xaa64 :=
    readU32_eq_ok.mpr named
  rw [KdmpMetadata.parse_machine parsed, machine, Except.ok.injEq] at read
  exact absurd read (by decide)

theorem kdmp_amd64_bitmap_parsed : HeaderAccepted (bitmapDump 0x8664) := by
  obtain ⟨⟨bundle, loaded⟩, named⟩ := bitmapDump_loads 0x8664
  exact (kdmp_headers_agree_iff loaded).mpr (readU32_eq_ok.mpr named)

end LibVmi.Artifact
