import LibVmi.Artifact.Files

namespace LibVmi.Artifact

open Data

/-! Snapshot manifests: a JSON table of file slices next to the manifest. -/

def defaultMaxManifestSize : UInt64 := 16 * 1024 * 1024

def manifestU64 (value : Option Json) (field : String) (index : Nat) :
    Result UInt64 := do
  let value ← okOr value
    (.backend s!"snapshot manifest segment {index} {field} is missing")
  match value.asU64 with
  | some number => .ok number
  | none => do
      let text ← okOr value.asStr
        (.backend s!"snapshot manifest segment {index} {field} must be unsigned")
      let parsed := match text.toList with
        | '0' :: 'x' :: digits => fromStrRadix 16 digits
        | digits => fromStrRadix 10 digits
      parsed.mapError fun error => .backend
        s!"invalid snapshot manifest segment {index} {field}: {error}"

/-- The file slice that one entry names. -/
def resolveEntry (host : Host) (base : Path) (index : Nat)
    (entry : List (String × Json)) : Result Path := do
  let file ← okOr ((Json.field entry "file").bind Json.asStr)
    (.backend s!"snapshot manifest segment {index} file is missing")
  let candidate := Path.parse file
  rejectIf candidate.isAbsolute
    (.backend s!"snapshot manifest segment {index} file must be relative")
  let filePath ← (host.canonicalize (base.join candidate)).mapError fun error =>
    .backend s!"failed to resolve manifest file {file}: {error}"
  rejectIf (¬ base <+: filePath) (.backend
    s!"snapshot manifest segment {index} escapes the manifest directory")
  return filePath

/-- The bytes of a slice that is known to lie within its file. -/
def readSlice (host : Host) (filePath : Path) (index : Nat)
    (fileOffset length stop : UInt64) : Result Buffer := do
  let shown := filePath.display
  let source ← (host.openFile filePath).mapError fun error =>
    .backend s!"failed to open manifest file {shown}: {error}"
  let size ← source.length.mapError fun error =>
    .backend s!"failed to inspect manifest file {shown}: {error}"
  rejectIf (size.toNat < stop.toNat)
    (.backend s!"snapshot manifest segment {index} exceeds {shown}")
  let source ← (source.seek fileOffset).mapError fun error =>
    .backend s!"failed to seek manifest file {shown}: {error}"
  let unallocated : VmiError := .backend
    (s!"failed to allocate snapshot manifest segment {index}: " ++
      capacityOverflow)
  rejectIf (2 ^ 63 ≤ length.toNat) unallocated
  let slice ← (readExact source length.toNat).mapError fun error =>
    .backend s!"failed to read manifest segment {index} from {shown}: {error}"
  okOr (Buffer.allocate slice) unallocated

def manifestSegment (host : Host) (base : Path) (maxTotalBytes : UInt64)
    (index : Nat) (entry : Json) (totalBytes : UInt64) :
    Result (SnapshotSegment × UInt64) := do
  let entry ← okOr entry.asObject
    (.backend s!"snapshot manifest segment {index} must be an object")
  let filePath ← resolveEntry host base index entry
  let gpa ← manifestU64 (Json.field entry "gpa") "gpa" index
  let fileOffset ← manifestU64 (Json.field entry "file_offset") "file_offset"
    index
  let length ← manifestU64 (Json.field entry "length") "length" index
  rejectIf (length = 0)
    (.backend s!"snapshot manifest segment {index} length is zero")
  let stop ← okOr (checkedAdd fileOffset length)
    (.backend s!"snapshot manifest segment {index} file range overflow")
  let totalBytes ← okOr (checkedAdd totalBytes length)
    (.backend "snapshot manifest total byte count overflow")
  rejectIf (maxTotalBytes.toNat < totalBytes.toNat) (.backend
    s!"snapshot manifest data exceeds configured limit of {maxTotalBytes} bytes")
  let slice ← readSlice host filePath index fileOffset length stop
  let _end ← okOr (checkedAdd gpa length)
    (.backend s!"snapshot manifest segment {index} GPA range overflow")
  return (.new ⟨gpa⟩ slice, totalBytes)

def manifestSegments (host : Host) (base : Path) (maxTotalBytes : UInt64) :
    List Json → (index : Nat) → (totalBytes : UInt64) →
      Result (List SnapshotSegment)
  | [], _, _ => .ok []
  | entry :: rest, index, totalBytes => do
      let (segment, totalBytes) ← manifestSegment host base maxTotalBytes index
        entry totalBytes
      let segments ← manifestSegments host base maxTotalBytes rest (index + 1)
        totalBytes
      return segment :: segments

/-- The format and the entries of a manifest. -/
def parseManifest (host : Host) (path : String) (contents : Buffer) :
    Result (String × List Json) := do
  let text ← okOr (String.fromUTF8? ⟨contents.bytes.toArray⟩)
    (let error := host.utf8Error contents.bytes
    .backend s!"snapshot manifest {path} is not UTF-8: {error}")
  let root ← (host.fromStr text).mapError fun error =>
    .backend s!"invalid snapshot manifest JSON: {error}"
  let root ← okOr root.asObject
    (.backend "snapshot manifest root must be an object")
  rejectIf ((Json.field root "version").bind Json.asU64 ≠ some 1)
    (.backend "unsupported snapshot manifest version")
  let format ← okOr ((Json.field root "format").bind Json.asStr)
    (.backend "snapshot manifest format must be a string")
  let entries ← okOr ((Json.field root "segments").bind Json.asArray)
    (.backend "snapshot manifest segments must be an array")
  return (format, entries)

def manifestFileWithLimits (host : Host) (path : String) (maxSegments : Nat)
    (maxTotalBytes : UInt64) : Result SnapshotBundle := do
  rejectIf (maxSegments = 0 ∨ maxTotalBytes = 0)
    (.backend "manifest segment and byte limits must be non-zero")
  let contents ← readFileLimited host path defaultMaxManifestSize
    "snapshot manifest"
  let (format, entries) ← parseManifest host path contents
  let count := entries.length
  rejectIf (count = 0) (.backend "snapshot manifest contains no segments")
  rejectIf (maxSegments < count) (.backend
    (s!"snapshot manifest contains {count} segments, exceeding limit " ++
      s!"{maxSegments}"))
  let base ← (host.canonicalize
      ((Path.parse path).parent.getD [.current])).mapError fun error =>
    .backend s!"failed to resolve manifest directory for {path}: {error}"
  let segments ← manifestSegments host base maxTotalBytes entries 0 0
  let segments ← arrange "snapshot manifest physical ranges overlap" segments
  return ⟨⟨format, path⟩, segments⟩

theorem readSlice_length {host : Host} {filePath : Path} {index : Nat}
    {fileOffset length stop : UInt64} {slice : Buffer}
    (read : readSlice host filePath index fileOffset length stop =
      .ok slice) : slice.length = length.toNat := by
  simp only [readSlice, bind_eq_ok, mapError_eq_ok, okOr_eq_ok,
    Buffer.allocate_eq_some] at read
  obtain ⟨_, _, _, _, _, _, source, _, _, _, bytes, filled, sliceEq⟩ := read
  rw [Buffer.length, sliceEq]
  exact readExact_length filled

/-- An accepted entry is not empty and ends before the last address. -/
theorem manifestSegment_range {host : Host} {base : Path}
    {maxTotalBytes : UInt64} {index : Nat} {entry : Json}
    {totalBytes total : UInt64} {segment : SnapshotSegment}
    (loaded : manifestSegment host base maxTotalBytes index entry totalBytes =
      .ok (segment, total)) :
    0 < segment.data.length ∧ segment.upper < 2 ^ 64 := by
  simp only [manifestSegment, bind_eq_ok, okOr_eq_ok, rejectIf_eq_ok,
    checkedAdd_eq_some, unsigned_toNat_uint64, pure_eq_ok, Except.ok.injEq,
    Prod.mk.injEq] at loaded
  obtain ⟨_, _, filePath, _, gpa, _, fileOffset, _, length, _, _, positive,
    stop, _, _, _, _, _, slice, read, last, lastEq, rfl, rfl⟩ := loaded
  have sliceLength := readSlice_length read
  have lastBound := last.toNat_lt
  rw [← UInt64.toNat_inj] at positive
  change ¬ length.toNat = 0 at positive
  rw [SnapshotSegment.new_data, SnapshotSegment.new_upper]
  simp only
  omega

theorem manifestSegments_range {host : Host} {base : Path}
    {maxTotalBytes : UInt64} {entries : List Json} {index : Nat}
    {totalBytes : UInt64} {segments : List SnapshotSegment}
    (loaded : manifestSegments host base maxTotalBytes entries index
      totalBytes = .ok segments) :
    ∀ segment ∈ segments, 0 < segment.data.length ∧ segment.upper < 2 ^ 64 := by
  induction entries generalizing index totalBytes segments with
  | nil =>
      rw [manifestSegments, Except.ok.injEq] at loaded
      simp [← loaded]
  | cons entry rest induction =>
      simp only [manifestSegments, bind_eq_ok, pure_eq_ok, Except.ok.injEq,
        Prod.exists] at loaded
      obtain ⟨segment, total, first, others, restLoaded, rfl⟩ := loaded
      intro other member
      cases List.mem_cons.mp member with
      | inl same => exact same ▸ manifestSegment_range first
      | inr inRest => exact induction restLoaded other inRest

theorem manifest_segments {host : Host} {path : String} {maxSegments : Nat}
    {maxTotalBytes : UInt64} {bundle : SnapshotBundle}
    (loaded : manifestFileWithLimits host path maxSegments maxTotalBytes =
      .ok bundle) :
    ∃ segments, arrange "snapshot manifest physical ranges overlap" segments =
        .ok bundle.segments ∧
      ∀ segment ∈ segments,
        0 < segment.data.length ∧ segment.upper < 2 ^ 64 := by
  simp only [manifestFileWithLimits, bind_eq_ok, mapError_eq_ok, pure_eq_ok,
    Except.ok.injEq, Prod.exists] at loaded
  obtain ⟨_, _, contents, _, format, entries, _, _, _, _, _, base, _, segments,
    segmentsLoaded, sorted, arranged, rfl⟩ := loaded
  exact ⟨segments, arranged, manifestSegments_range segmentsLoaded⟩

end LibVmi.Artifact
