import LibVmi.Artifact.BoundedReads
import LibVmi.Artifact.Elf
import LibVmi.Artifact.KdmpImage
import LibVmi.Artifact.Manifest

namespace LibVmi.Artifact

open Data

/-! Dumps that are kept compressed, and cores that another tool has converted.
The decompressors are libraries: what reading from one gives is a parameter. -/

inductive Encoding where
  | gzip
  | bzip2
  | xz
  | zstd
  | zlib
  deriving DecidableEq

namespace Encoding

def text : Encoding → String
  | .gzip => "gzip"
  | .bzip2 => "bzip2"
  | .xz => "xz"
  | .zstd => "zstd"
  | .zlib => "zlib"

def magic : Encoding → List UInt8
  | .gzip => [0x1f, 0x8b]
  | .bzip2 => ascii "BZh"
  | .xz => [0xfd, 0x37, 0x7a, 0x58, 0x5a, 0x00]
  | .zstd => [0x28, 0xb5, 0x2f, 0xfd]
  | .zlib => [0x78]

/-- The order in which a file is tried. -/
def all : List Encoding := [.gzip, .bzip2, .xz, .zstd, .zlib]

def detect (bytes : List UInt8) : Option Encoding :=
  all.find? fun encoding => decide (encoding.magic <+: bytes)

theorem mem_all (encoding : Encoding) : encoding ∈ all := by
  cases encoding <;> decide

theorem detect_magic {bytes : List UInt8} {encoding : Encoding}
    (detected : detect bytes = some encoding) : encoding.magic <+: bytes := by
  have tested := List.find?_some detected
  simpa using tested

theorem magic_length (encoding : Encoding) : encoding.magic.length ≤ 8 := by
  cases encoding <;> decide

theorem magic_head (encoding : Encoding) :
    ∃ first rest, encoding.magic = first :: rest ∧ first ≠ 0x7f := by
  cases encoding <;> exact ⟨_, _, rfl, by decide⟩

/-- No encoding starts as an ELF file does. -/
theorem magic_not_elf {bytes : List UInt8} {encoding : Encoding}
    (starts : encoding.magic <+: bytes) : ¬ elfMagic <+: bytes := by
  rintro ⟨after, elf⟩
  obtain ⟨rest, same⟩ := starts
  obtain ⟨first, others, magicEq, different⟩ := encoding.magic_head
  rw [← elf, magicEq] at same
  exact different (List.cons.inj same).1

end Encoding

/-- Only the decoder of zstd may refuse to start. -/
structure Decoders where
  reader : Encoding → Buffer → Source
  zstdError : Buffer → Option String

namespace Decoders

variable (self : Decoders)

def start (encoding : Encoding) (data : Buffer) : Result Source :=
  match encoding, self.zstdError data with
  | .zstd, some error =>
      .error (.backend s!"failed to initialize zstd KDMP decoder: {error}")
  | encoding, _ => .ok (self.reader encoding data)

def decode (data : Buffer) (maxDecodedSize : UInt64) : Result Buffer :=
  match Encoding.detect data.bytes with
  | none => .ok data
  | some encoding => do
      let decoder ← self.start encoding data
      decodeCompressedKdmp decoder encoding.text maxDecodedSize

end Decoders

def defaultMaxDecodedKdmpSize : UInt64 := 64 * 1024 * 1024 * 1024

def defaultMaxManifestSegments : Nat := 65536

def defaultMaxManifestBytes : UInt64 := 64 * 1024 * 1024 * 1024

namespace SnapshotBundle

def elfVmcoreFileWithLimits (host : Host) (path : String)
    (maxFileSize maxMemorySize : UInt64) : Result SnapshotBundle := do
  let data ← readFileLimited host path maxFileSize "ELF artifact"
  fromElfWithLimits path data "elf-vmcore" maxMemorySize

def elfVmcoreFile (host : Host) (path : String) : Result SnapshotBundle :=
  elfVmcoreFileWithLimits host path defaultMaxArtifactSize
    defaultMaxArtifactSize

def xenCoreFileWithLimits (host : Host) (path : String)
    (maxFileSize maxMemorySize : UInt64) : Result SnapshotBundle := do
  let data ← readFileLimited host path maxFileSize "Xen core artifact"
  fromElfWithLimits path data "xen-core" maxMemorySize

def xenCoreFile (host : Host) (path : String) : Result SnapshotBundle :=
  xenCoreFileWithLimits host path defaultMaxArtifactSize defaultMaxArtifactSize

def kdmpFileWithLimit (host : Host) (decoders : Decoders) (path : String)
    (maxDecodedSize : UInt64) : Result SnapshotBundle := do
  rejectIf (maxDecodedSize = 0)
    (.backend "maximum decoded KDMP size must be non-zero")
  let data ← readFileLimited host path maxDecodedSize "encoded KDMP artifact"
  let decoded ← decoders.decode data maxDecodedSize
  fromKdmp path decoded

def kdmpFile (host : Host) (decoders : Decoders) (path : String) :
    Result SnapshotBundle :=
  kdmpFileWithLimit host decoders path defaultMaxDecodedKdmpSize

def rawFile (host : Host) (path : String) (base : Gpa) :
    Result SnapshotBundle :=
  rawFileWithLimit host path base defaultMaxArtifactSize

def manifestFile (host : Host) (path : String) : Result SnapshotBundle :=
  manifestFileWithLimits host path defaultMaxManifestSegments
    defaultMaxManifestBytes

/-- Whether the beginning of a file is that of a dump, plain or compressed. -/
def startsDump (bytes : List UInt8) : Prop :=
  ascii "PAGEDU64" <+: bytes ∨ ∃ encoding ∈ Encoding.all,
    encoding.magic <+: bytes

instance (bytes : List UInt8) : Decidable (startsDump bytes) :=
  inferInstanceAs (Decidable (_ ∨ _))

def convertedCoreFile (host : Host) (decoders : Decoders) (path : String) :
    Result SnapshotBundle := do
  let start ← readFilePrefix host path 8
  if elfMagic <+: start.bytes then elfVmcoreFile host path
  else if startsDump start.bytes then kdmpFile host decoders path
  else .error (.backend "converted core is neither ELF nor Windows KDMP")

end SnapshotBundle

/-! What a file comes to. -/

/-- The dump that a file keeps: the file itself where it is not compressed, and
otherwise what is read from its decoder when that does not fail. -/
def Decoders.Keeps (decoders : Decoders) (stored payload : Buffer) : Prop :=
  match Encoding.detect stored.bytes with
  | none => payload = stored
  | some encoding =>
      decoders.start encoding stored =
          .ok (decoders.reader encoding stored) ∧
        (decoders.reader encoding stored).Reliable ∧
        (decoders.reader encoding stored).bytes = payload.bytes

theorem dump_signed {source : String} {data : Buffer}
    {bundle : SnapshotBundle} (loaded : fromKdmp source data = .ok bundle) :
    ascii "PAGEDU64" <+: data.bytes := by
  have accepted := (fromKdmp_eq_ok.mp loaded).1
  simp only [notCrashDump, not_or, not_not] at accepted
  obtain ⟨_, ⟨rest, same⟩, signed⟩ := accepted
  obtain ⟨before, after, split, four, _⟩ := slice_eq_some.mp signed
  have page : before = ascii "PAGE" := by
    rw [← same, List.append_assoc] at split
    refine (List.append_inj split ?_).1.symm
    rw [four]
    decide
  rw [split, page]
  exact ⟨after, by rw [show ascii "PAGEDU64" = ascii "PAGE" ++ ascii "DU64"
    by decide]⟩

section Files

variable {host : Host} {path : String} {file : File} {stored : Buffer}

theorem readFileLimited_iff
    (opened : host.openFile (Path.parse path) = .ok file)
    (holds : file.Holds stored) {maximum : UInt64} (positive : maximum ≠ 0)
    (description : String) {data : Buffer} :
    readFileLimited host path maximum description = .ok data ↔
      data = stored ∧ stored.length ≤ maximum.toNat := by
  constructor
  · intro read
    obtain ⟨other, size, openedToo, sized, fits, same⟩ :=
      readFileLimited_bytes read
    rw [opened] at openedToo
    cases openedToo
    rw [holds.source.1] at same
    rw [holds.length] at sized
    have sizeEq : size.toNat = stored.length := by
      rw [← Except.ok.inj sized]
      exact UInt64.toNat_ofNat_of_lt' stored.length_lt_limit
    exact ⟨Buffer.ext same, sizeEq ▸ fits⟩
  · rintro ⟨rfl, within⟩
    exact readFileLimited_holds opened holds positive within description

theorem decode_iff {decoders : Decoders} {payload : Buffer}
    (keeps : decoders.Keeps stored payload) {maximum : UInt64}
    (within : stored.length ≤ maximum.toNat) {source : String}
    {bundle : SnapshotBundle} :
    (∃ data, decoders.decode stored maximum = .ok data ∧
        fromKdmp source data = .ok bundle) ↔
      payload.length ≤ maximum.toNat ∧ fromKdmp source payload = .ok bundle := by
  unfold Decoders.Keeps at keeps
  unfold Decoders.decode
  cases detected : Encoding.detect stored.bytes with
  | none =>
      rw [detected] at keeps
      obtain rfl : payload = stored := keeps
      simp [within]
  | some encoding =>
      rw [detected] at keeps
      obtain ⟨started, reliable, same⟩ := keeps
      dsimp only
      rw [started, ok_bind]
      have captured (data : Buffer) : capture (kdmpRefusals encoding.text
            maximum) 65536 (captureLimit maximum) maximum.toNat
            (decoders.reader encoding stored) .empty = .ok data ↔
          data = payload ∧ payload.length ≤ maximum.toNat := by
        rw [capture_ok_iff reliable (by decide) (captureLimit_bounds maximum).1
          (Nat.zero_le _), same]
        constructor
        · rintro ⟨whole, fits⟩
          obtain rfl : data = payload := Buffer.ext whole
          exact ⟨rfl, fits⟩
        · rintro ⟨rfl, fits⟩
          exact ⟨rfl, fits⟩
      constructor
      · rintro ⟨data, decoded, loaded⟩
        obtain ⟨rfl, fits⟩ :=
          (captured data).mp (decodeCompressedKdmp_ok.mp decoded).1
        exact ⟨fits, loaded⟩
      · rintro ⟨fits, loaded⟩
        exact ⟨payload, decodeCompressedKdmp_ok.mpr
          ⟨(captured payload).mpr ⟨rfl, fits⟩, dump_signed loaded⟩, loaded⟩

/-- A dump opens alike in whatever encoding it is kept. -/
theorem kdmpFile_iff (opened : host.openFile (Path.parse path) = .ok file)
    (holds : file.Holds stored) {decoders : Decoders} {payload : Buffer}
    (keeps : decoders.Keeps stored payload) {maximum : UInt64}
    {bundle : SnapshotBundle} :
    SnapshotBundle.kdmpFileWithLimit host decoders path maximum = .ok bundle ↔
      stored.length ≤ maximum.toNat ∧ payload.length ≤ maximum.toNat ∧
        fromKdmp path payload = .ok bundle := by
  unfold SnapshotBundle.kdmpFileWithLimit
  by_cases zero : maximum = 0
  · subst zero
    rw [rejectIf_pos rfl]
    refine iff_of_false nofun ?_
    rintro ⟨_, empty, loaded⟩
    have eight := (dump_signed loaded).length_le
    change 8 ≤ payload.length at eight
    change payload.length ≤ 0 at empty
    omega
  · rw [rejectIf_neg zero, ok_bind]
    simp only [bind_eq_ok, readFileLimited_iff opened holds zero]
    constructor
    · rintro ⟨_, ⟨rfl, within⟩, decoded⟩
      exact ⟨within, (decode_iff keeps within).mp decoded⟩
    · rintro ⟨within, rest⟩
      exact ⟨stored, ⟨rfl, within⟩, (decode_iff keeps within).mpr rest⟩

theorem elfVmcoreFile_iff
    (opened : host.openFile (Path.parse path) = .ok file)
    (holds : file.Holds stored) {bundle : SnapshotBundle} :
    SnapshotBundle.elfVmcoreFile host path = .ok bundle ↔
      stored.length ≤ defaultMaxArtifactSize.toNat ∧
        fromElfVmcore path stored = .ok bundle := by
  simp only [SnapshotBundle.elfVmcoreFile,
    SnapshotBundle.elfVmcoreFileWithLimits, bind_eq_ok, fromElfVmcore,
    readFileLimited_iff opened holds
      (show defaultMaxArtifactSize ≠ 0 by decide)]
  constructor
  · rintro ⟨_, ⟨rfl, within⟩, loaded⟩
    exact ⟨within, loaded⟩
  · rintro ⟨within, loaded⟩
    exact ⟨stored, ⟨rfl, within⟩, loaded⟩

/-- A file that opens as a dump starts as one. -/
theorem startsDump_of_opened
    (opened : host.openFile (Path.parse path) = .ok file)
    (holds : file.Holds stored) {decoders : Decoders}
    {bundle : SnapshotBundle}
    (loaded : SnapshotBundle.kdmpFile host decoders path = .ok bundle) :
    SnapshotBundle.startsDump stored.bytes := by
  simp only [SnapshotBundle.kdmpFile, SnapshotBundle.kdmpFileWithLimit,
    bind_eq_ok, readFileLimited_iff opened holds
      (show defaultMaxDecodedKdmpSize ≠ 0 by decide)] at loaded
  obtain ⟨_, _, held, ⟨rfl, _⟩, data, decoded, dump⟩ := loaded
  unfold Decoders.decode at decoded
  cases detected : Encoding.detect held.bytes with
  | none =>
      rw [detected] at decoded
      cases decoded
      exact .inl (dump_signed dump)
  | some encoding =>
      exact .inr ⟨encoding, encoding.mem_all,
        Encoding.detect_magic detected⟩

theorem startsDump_not_elf {bytes : List UInt8}
    (starts : SnapshotBundle.startsDump bytes) : ¬ elfMagic <+: bytes := by
  obtain ⟨rest, signed⟩ | ⟨encoding, _, starts⟩ := starts
  · rintro ⟨after, elf⟩
    rw [← elf] at signed
    exact absurd (List.cons.inj signed).1 (by decide)
  · exact Encoding.magic_not_elf starts

/-- Eight bytes are enough to tell how a file starts. -/
theorem startsDump_first (bytes : List UInt8) :
    SnapshotBundle.startsDump (bytes.take 8) ↔
      SnapshotBundle.startsDump bytes := by
  have signature : (ascii "PAGEDU64").length ≤ 8 := by decide
  simp only [SnapshotBundle.startsDump, List.prefix_take_iff,
    Encoding.magic_length, signature, and_true]

/-- Eight bytes tell which opener is the right one: a converted core opens
exactly where one of the two opens it, and as that one does. -/
theorem converted_core_exact
    (opened : host.openFile (Path.parse path) = .ok file)
    (holds : file.Holds stored) (decoders : Decoders)
    (bundle : SnapshotBundle) :
    (SnapshotBundle.convertedCoreFile host decoders path = .ok bundle ↔
      SnapshotBundle.elfVmcoreFile host path = .ok bundle ∨
        SnapshotBundle.kdmpFile host decoders path = .ok bundle) ∧
    (SnapshotBundle.elfVmcoreFile host path = .ok bundle ↔
      stored.length ≤ defaultMaxArtifactSize.toNat ∧
        fromElfVmcore path stored = .ok bundle) ∧
    ∀ payload, decoders.Keeps stored payload →
      (SnapshotBundle.kdmpFile host decoders path = .ok bundle ↔
        stored.length ≤ defaultMaxDecodedKdmpSize.toNat ∧
          payload.length ≤ defaultMaxDecodedKdmpSize.toNat ∧
            fromKdmp path payload = .ok bundle) := by
  refine ⟨?_, elfVmcoreFile_iff opened holds,
    fun _ keeps => kdmpFile_iff opened holds keeps⟩
  have start := readFilePrefix_holds opened holds
    (show 8 < 2 ^ 63 by decide)
  have elf : elfMagic <+: (stored.first 8).bytes ↔
      elfMagic <+: stored.bytes := by
    rw [Buffer.first_bytes, List.prefix_take_iff]
    exact and_iff_left (by decide)
  have dump : SnapshotBundle.startsDump (stored.first 8).bytes ↔
      SnapshotBundle.startsDump stored.bytes := by
    rw [Buffer.first_bytes]
    exact startsDump_first stored.bytes
  unfold SnapshotBundle.convertedCoreFile
  rw [start, ok_bind, if_congr elf rfl (if_congr dump rfl rfl)]
  have asElf (loaded : SnapshotBundle.elfVmcoreFile host path = .ok bundle) :
      elfMagic <+: stored.bytes :=
    (fromElf_eq_ok.mp ((elfVmcoreFile_iff opened holds).mp loaded).2).2.1.2.1
  have asDump (loaded : SnapshotBundle.kdmpFile host decoders path =
      .ok bundle) : SnapshotBundle.startsDump stored.bytes :=
    startsDump_of_opened opened holds loaded
  by_cases isElf : elfMagic <+: stored.bytes
  · rw [if_pos isElf]
    refine ⟨.inl, fun either => either.resolve_right ?_⟩
    exact fun loaded => startsDump_not_elf (asDump loaded) isElf
  · rw [if_neg isElf]
    by_cases isDump : SnapshotBundle.startsDump stored.bytes
    · rw [if_pos isDump]
      exact ⟨.inr, fun either => either.resolve_left (isElf ∘ asElf)⟩
    · rw [if_neg isDump]
      refine iff_of_false nofun ?_
      rintro (loaded | loaded)
      · exact isElf (asElf loaded)
      · exact isDump (asDump loaded)

end Files

/-! A page of zeros, compressed to a byte that says so. -/

theorem zeroBytes_bounded : (List.replicate 4096 (0 : UInt8)).length < 2 ^ 63 := by
  decide +kernel

def zeroBytes : Buffer := ⟨List.replicate 4096 0, zeroBytes_bounded⟩

theorem zeroBytes_length : zeroBytes.length = (1 : UInt64).toNat * 4096 := by
  decide +kernel

theorem zeroPage_fits :
    ((1 : UInt64).toNat + (1 : UInt64).toNat) * 4096 ≤ 2 ^ 64 := by
  decide

def zeroPage : KdmpRun :=
  singlePage 1 zeroPage_fits zeroBytes zeroBytes_length

theorem zeroDump_bounded : (kdmpImage [zeroPage]).length < 2 ^ 63 := by
  decide +kernel

def zeroDump : Buffer := ⟨kdmpImage [zeroPage], zeroDump_bounded⟩

def compressedDump : Buffer := ⟨[0x78], by decide⟩

def compressedHost : Host where
  canonicalize := .ok
  openFile := fun _ => .ok (diskFile compressedDump)
  fromStr := fun _ => .error ""
  utf8Error := fun _ => ""

def zeroDecoders : Decoders where
  reader := fun _ _ => ⟨zeroDump.bytes, []⟩
  zstdError := fun _ => none

theorem converted_core_exact_zlib :
    ∃ bundle, SnapshotBundle.convertedCoreFile compressedHost zeroDecoders
        "memory.dmp" = .ok bundle ∧
      fromKdmp "memory.dmp" zeroDump = .ok bundle := by
  have accepted : (fromKdmp "memory.dmp" zeroDump).toOption.isSome := by
    decide +kernel
  cases loaded : fromKdmp "memory.dmp" zeroDump with
  | error error =>
      rw [loaded] at accepted
      contradiction
  | ok bundle =>
      obtain ⟨either, _, asDump⟩ := @converted_core_exact compressedHost
        "memory.dmp" _ _ rfl (diskFile_holds compressedDump) zeroDecoders bundle
      have keeps : zeroDecoders.Keeps compressedDump zeroDump :=
        ⟨rfl, fun _ => List.not_mem_nil, rfl⟩
      refine ⟨bundle, either.mpr (.inr ((asDump zeroDump keeps).mpr
        ⟨by decide, ?_, loaded⟩)), rfl⟩
      decide +kernel

end LibVmi.Artifact
