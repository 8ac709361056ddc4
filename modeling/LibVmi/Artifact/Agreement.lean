import LibVmi.Artifact.ElfImage
import LibVmi.Artifact.Layout
import LibVmi.Artifact.ReadInto

namespace LibVmi.Artifact

open Data

/-! Manifests made from a list of segments, each a slice of some file next to
the manifest. -/

structure ManifestSlice where
  file : String
  fileOffset : UInt64
  segment : SnapshotSegment

def unsigned (value : UInt64) : Json :=
  .number (.posInt value)

def ManifestSlice.fields (slice : ManifestSlice) : List (String × Json) :=
  [("file", .string slice.file), ("file_offset", unsigned slice.fileOffset),
    ("gpa", unsigned slice.segment.range.start.raw),
    ("length", unsigned slice.segment.range.length)]

def ManifestSlice.toJson (slice : ManifestSlice) : Json :=
  .object slice.fields

def manifestJson (format : String) (slices : List ManifestSlice) : Json :=
  .object [("format", .string format),
    ("segments", .array (slices.map ManifestSlice.toJson)),
    ("version", unsigned 1)]

/-- The slice's file lies below the manifest's directory and holds the
segment. -/
structure ManifestSlice.Stored (host : Host) (base : Path)
    (slice : ManifestSlice) : Prop where
  relative : ¬ (Path.parse slice.file).isAbsolute
  resolved : ∃ path file contents,
    host.canonicalize (base.join (Path.parse slice.file)) = .ok path ∧
    base <+: path ∧ host.openFile path = .ok file ∧ file.Holds contents ∧
    Data.slice contents.bytes slice.fileOffset.toNat
      (slice.fileOffset.toNat + slice.segment.data.length) =
        some slice.segment.data.bytes

/-- The host has the manifest and its files: opening a file gives what was
written to it, and parsing the text gives the value that was rendered. -/
structure ManifestStored (host : Host) (path : String) (format : String)
    (slices : List ManifestSlice) : Prop where
  manifest : ∃ file contents text,
    host.openFile (Path.parse path) = .ok file ∧ file.Holds contents ∧
    contents.length ≤ defaultMaxManifestSize.toNat ∧
    String.fromUTF8? ⟨contents.bytes.toArray⟩ = some text ∧
    host.fromStr text = .ok (manifestJson format slices)
  files : ∃ base,
    host.canonicalize ((Path.parse path).parent.getD [.current]) = .ok base ∧
    ∀ slice ∈ slices, slice.Stored host base

theorem manifestU64_unsigned (value : UInt64) (field : String) (index : Nat) :
    manifestU64 (some (unsigned value)) field index = .ok value := rfl

theorem readSlice_holds {host : Host} {path : Path} {file : File}
    {contents bytes : Buffer} {fileOffset length stop : UInt64} (index : Nat)
    (opened : host.openFile path = .ok file) (holds : file.Holds contents)
    (stored : slice contents.bytes fileOffset.toNat
      (fileOffset.toNat + bytes.length) = some bytes.bytes)
    (lengthEq : length.toNat = bytes.length)
    (stopEq : stop.toNat = fileOffset.toNat + length.toNat) :
    readSlice host path index fileOffset length stop = .ok bytes := by
  have within := (slice_length stored).2
  change _ ≤ contents.length at within
  have sizeEq : (UInt64.ofNat contents.length).toNat = contents.length :=
    UInt64.toNat_ofNat_of_lt' contents.length_lt_limit
  have small := bytes.length_lt
  change bytes.length < _ at small
  obtain ⟨source, sought, sourceBytes, reliable⟩ := holds.seek fileOffset
  have taken : source.bytes.take length.toNat = bytes.bytes := by
    obtain ⟨before, after, whole, beforeLength, _⟩ := slice_eq_some.mp stored
    rw [sourceBytes, whole, ← beforeLength, List.append_assoc,
      List.drop_left, lengthEq]
    exact List.take_left
  have enough : length.toNat ≤ source.bytes.length := by
    rw [sourceBytes, List.length_drop]
    change _ ≤ contents.length - _
    omega
  simp only [readSlice, bind_eq_ok, mapError_eq_ok, rejectIf_eq_ok, okOr_eq_ok,
    Buffer.allocate_eq_some, exists_and_left, exists_const, Nat.not_lt,
    Nat.not_le]
  exact ⟨file, opened, _, holds.length, by omega, source, sought, by omega,
    bytes.bytes, taken ▸ readExact_reliable reliable enough, rfl⟩

/-- An entry is loaded exactly when its segment ends below the last address. -/
theorem manifestSegment_toJson {host : Host} {base : Path}
    {maxTotalBytes totalBytes total : UInt64} {slice : ManifestSlice}
    {segment : SnapshotSegment} (index : Nat) (stored : slice.Stored host base)
    (nonempty : 0 < slice.segment.data.length)
    (within : totalBytes.toNat + slice.segment.data.length ≤
      maxTotalBytes.toNat) :
    manifestSegment host base maxTotalBytes index slice.toJson totalBytes =
        .ok (segment, total) ↔
      slice.segment.upper < 2 ^ 64 ∧ segment = slice.segment ∧
        total.toNat = totalBytes.toNat + slice.segment.data.length := by
  obtain ⟨path, file, contents, canonical, below, opened, holds, inside⟩ :=
    stored.resolved
  have lengthEq := slice.segment.length_eq
  have bound := (slice_length inside).2
  have small := contents.length_lt
  have entry : resolveEntry host base index slice.fields = .ok path := by
    simp only [resolveEntry, bind_eq_ok, okOr_eq_ok, rejectIf_eq_ok,
      mapError_eq_ok, exists_and_left, exists_const, not_not, pure_eq_ok,
      Except.ok.injEq]
    exact ⟨slice.file, rfl, stored.relative, path, canonical, below, rfl⟩
  have positive : slice.segment.range.length ≠ 0 := by
    intro zero
    rw [zero] at lengthEq
    change 0 = _ at lengthEq
    omega
  have object : slice.toJson.asObject = some slice.fields := rfl
  have gpa : Json.field slice.fields "gpa" =
      some (unsigned slice.segment.range.start.raw) := rfl
  have fileOffset : Json.field slice.fields "file_offset" =
      some (unsigned slice.fileOffset) := rfl
  have length : Json.field slice.fields "length" =
      some (unsigned slice.segment.range.length) := rfl
  simp only [manifestSegment, object, okOr_some, ok_bind, entry, gpa,
    fileOffset, length, manifestU64_unsigned, rejectIf_neg positive,
    bind_eq_ok, okOr_eq_ok, rejectIf_eq_ok, checkedAdd_eq_some,
    unsigned_toNat_uint64, exists_and_left, exists_const, pure_eq_ok,
    Except.ok.injEq, Prod.mk.injEq]
  constructor
  · intro given
    obtain ⟨stop, stopEq, total', totalEq, fits, bytes, read, last, lastEq,
      rfl, rfl⟩ := given
    have loaded := readSlice_holds index opened holds inside lengthEq stopEq
    rw [read, Except.ok.injEq] at loaded
    have lastBound := last.toNat_lt
    refine ⟨?_, ?_, by omega⟩
    · change _ + slice.segment.range.length.toNat < _
      exact lastEq ▸ lastBound
    · rw [loaded]
      exact slice.segment.new_self
  · intro given
    obtain ⟨fits, rfl, totalEq⟩ := given
    have stopEq : (UInt64.ofNat (slice.fileOffset.toNat +
        slice.segment.range.length.toNat)).toNat = slice.fileOffset.toNat +
          slice.segment.range.length.toNat :=
      UInt64.toNat_ofNat_of_lt' (by simp only [UInt64.size]; omega)
    have lastEq : (UInt64.ofNat slice.segment.upper).toNat =
        slice.segment.upper := UInt64.toNat_ofNat_of_lt' fits
    exact ⟨_, stopEq, total, by omega, by omega, _,
      readSlice_holds index opened holds inside lengthEq stopEq, _, lastEq,
      slice.segment.new_self, rfl⟩

theorem manifestSegments_toJson {host : Host} {base : Path}
    {maxTotalBytes totalBytes : UInt64} {slices : List ManifestSlice}
    {segments : List SnapshotSegment} (index : Nat)
    (stored : ∀ slice ∈ slices, slice.Stored host base)
    (nonempty : ∀ slice ∈ slices, 0 < slice.segment.data.length)
    (within : totalBytes.toNat +
      (contents (slices.map ManifestSlice.segment)).length ≤
        maxTotalBytes.toNat) :
    manifestSegments host base maxTotalBytes
        (slices.map ManifestSlice.toJson) index totalBytes = .ok segments ↔
      (∀ slice ∈ slices, slice.segment.upper < 2 ^ 64) ∧
        segments = slices.map ManifestSlice.segment := by
  induction slices generalizing index totalBytes segments with
  | nil => simp [manifestSegments, eq_comm]
  | cons slice rest induction =>
      simp only [List.mem_cons, forall_eq_or_imp] at stored nonempty
      rw [List.map_cons, contents_length_cons] at within
      have room : totalBytes.toNat + slice.segment.data.length ≤
          maxTotalBytes.toNat := by omega
      simp only [List.map_cons, manifestSegments, bind_eq_ok, Prod.exists,
        pure_eq_ok, Except.ok.injEq, List.mem_cons, forall_eq_or_imp,
        manifestSegment_toJson index stored.1 nonempty.1 room]
      constructor
      · intro given
        obtain ⟨_, total, ⟨fits, rfl, totalEq⟩, others, loaded, rfl⟩ := given
        obtain ⟨restFits, rfl⟩ := (induction (index + 1) stored.2 nonempty.2
          (by omega)).mp loaded
        exact ⟨⟨fits, restFits⟩, rfl⟩
      · intro given
        obtain ⟨⟨fits, restFits⟩, rfl⟩ := given
        have totalEq : (UInt64.ofNat (totalBytes.toNat +
            slice.segment.data.length)).toNat = totalBytes.toNat +
              slice.segment.data.length := by
          have limit := maxTotalBytes.toNat_lt
          exact UInt64.toNat_ofNat_of_lt' (by simp only [UInt64.size]; omega)
        exact ⟨slice.segment, _, ⟨fits, rfl, totalEq⟩, _,
          (induction (index + 1) stored.2 nonempty.2 (by omega)).mpr
            ⟨restFits, rfl⟩, rfl⟩

theorem parseManifest_json {host : Host} {contents : Buffer} {text : String}
    (decoded : String.fromUTF8? ⟨contents.bytes.toArray⟩ = some text)
    {format : String} {slices : List ManifestSlice}
    (parsed : host.fromStr text = .ok (manifestJson format slices))
    (path : String) :
    parseManifest host path contents =
      .ok (format, slices.map ManifestSlice.toJson) := by
  rw [parseManifest, decoded, okOr_some, ok_bind, parsed]
  rfl

/-- A stored manifest is loaded exactly when every segment ends below the last
address. -/
theorem manifestFile_stored {host : Host} {path format : String}
    {slices : List ManifestSlice}
    (stored : ManifestStored host path format slices)
    (present : slices ≠ [])
    (nonempty : ∀ slice ∈ slices, 0 < slice.segment.data.length)
    (apart : (slices.map ManifestSlice.segment).Pairwise Apart)
    {maxSegments : Nat} (count : slices.length ≤ maxSegments)
    {maxTotalBytes : UInt64} (positive : maxTotalBytes ≠ 0)
    (within : (contents (slices.map ManifestSlice.segment)).length ≤
      maxTotalBytes.toNat) {bundle : SnapshotBundle} :
    manifestFileWithLimits host path maxSegments maxTotalBytes =
        .ok bundle ↔
      (∀ slice ∈ slices, slice.segment.upper < 2 ^ 64) ∧
        bundle = ⟨⟨format, path⟩,
          sortByStart (slices.map ManifestSlice.segment)⟩ := by
  obtain ⟨file, text, value, opened, holds, small, decoded, parsed⟩ :=
    stored.manifest
  obtain ⟨base, canonical, files⟩ := stored.files
  have length := List.length_pos_iff.mpr present
  have read := readFileLimited_holds opened holds (by decide) small
    "snapshot manifest"
  have table := parseManifest_json decoded parsed path
  simp only [manifestFileWithLimits, read, table, canonical, ok_bind,
    Except.mapError, List.length_map, bind_eq_ok, rejectIf_eq_ok,
    manifestSegments_toJson 0 files nonempty
      (show (0 : UInt64).toNat + _ ≤ _ by simpa using within),
    pure_eq_ok, Except.ok.injEq, exists_and_left, exists_const]
  constructor
  · intro given
    obtain ⟨_, _, _, segments, ⟨fits, rfl⟩, sorted, arranged, rfl⟩ := given
    rw [arrange_of_apart _ apart, Except.ok.injEq] at arranged
    exact ⟨fits, by rw [arranged]⟩
  · intro given
    obtain ⟨fits, rfl⟩ := given
    refine ⟨?_, by omega, by omega, _, ⟨fits, rfl⟩, _,
      arrange_of_apart _ apart, rfl⟩
    rintro (none | none)
    · omega
    · exact positive none

/-! The three loaders on one list of segments. -/

def SameMemory (left right : SnapshotBundle) : Prop :=
  ∀ address output, left.readInto address output =
    right.readInto address output

theorem sameMemory_of_segments {left right : SnapshotBundle}
    (same : left.segments = right.segments) : SameMemory left right := by
  intro address output
  unfold SnapshotBundle.readInto
  rw [same]

theorem limit_ne_zero {segments : List SnapshotSegment}
    (present : segments ≠ [])
    (nonempty : ∀ segment ∈ segments, 0 < segment.data.length) {limit : UInt64}
    (room : (contents segments).length ≤ limit.toNat) : limit ≠ 0 := by
  intro same
  subst same
  obtain ⟨segment, member⟩ := List.exists_mem_of_ne_nil segments present
  have none : contents segments = [] :=
    List.length_eq_zero_iff.mp (Nat.le_zero.mp room)
  exact List.length_pos_iff.mp (nonempty segment member)
    (List.flatMap_eq_nil_iff.mp none segment member)

/-- Whatever order the segments are written in, the LiME file, the core and the
manifest all load and give the same memory, exactly when no segment ends at the
very top of the address space. -/
theorem loaders_agree_iff {segments : List SnapshotSegment}
    (present : segments ≠ []) (count : segments.length ≤ 65535)
    (nonempty : ∀ segment ∈ segments, 0 < segment.data.length)
    (fits : ∀ segment ∈ segments, segment.upper ≤ 2 ^ 64)
    (apart : segments.Pairwise Apart)
    {limeOrder coreOrder : List SnapshotSegment} {slices : List ManifestSlice}
    (limePerm : limeOrder.Perm segments) (corePerm : coreOrder.Perm segments)
    (slicesPerm : (slices.map ManifestSlice.segment).Perm segments)
    {lime core : Buffer} (limeEncoded : lime.bytes = limeImage limeOrder)
    (coreEncoded : core.bytes = coreImage coreOrder)
    {host : Host} {path format : String}
    (stored : ManifestStored host path format slices)
    {maxMemorySize maxTotalBytes : UInt64} {maxSegments : Nat}
    (memoryLimit : (contents segments).length ≤ maxMemorySize.toNat)
    (bytesLimit : (contents segments).length ≤ maxTotalBytes.toNat)
    (segmentLimit : segments.length ≤ maxSegments)
    (limeSource coreSource coreFormat : String) :
    (∃ fromLimeFile fromCore fromManifest,
      fromLime limeSource lime = .ok fromLimeFile ∧
      fromElfWithLimits coreSource core coreFormat maxMemorySize =
        .ok fromCore ∧
      manifestFileWithLimits host path maxSegments maxTotalBytes =
        .ok fromManifest ∧
      SameMemory fromLimeFile fromCore ∧ SameMemory fromCore fromManifest) ↔
      ∀ segment ∈ segments, segment.upper < 2 ^ 64 := by
  have sameOrder {order : List SnapshotSegment}
      (permuted : order.Perm segments) :
      sortByStart order = sortByStart segments :=
    sortByStart_unique apart nonempty
      ((sortByStart_perm order).trans permuted) (sortByStart_sorted order)
  have apartOf {order : List SnapshotSegment}
      (permuted : order.Perm segments) : order.Pairwise Apart :=
    Intervals.pairwise_apart_of_perm permuted.symm apart
  have presentIn {order : List SnapshotSegment}
      (permuted : order.Perm segments) : order ≠ [] :=
    fun none => present (List.nil_perm.mp (none ▸ permuted))
  have limeLoaded : fromLime limeSource lime =
      .ok ⟨⟨"lime", limeSource⟩, sortByStart segments⟩ := by
    rw [← sameOrder limePerm]
    exact fromLime_limeImage limeSource (presentIn limePerm)
      (fun segment member => nonempty segment (limePerm.subset member))
      (fun segment member => fits segment (limePerm.subset member))
      (apartOf limePerm) limeEncoded
  have coreLoaded :
      fromElfWithLimits coreSource core coreFormat maxMemorySize =
        .ok ⟨⟨coreFormat, coreSource⟩, sortByStart segments⟩ := by
    rw [← sameOrder corePerm]
    exact fromElf_coreImage coreSource coreFormat (presentIn corePerm)
      (corePerm.length_eq ▸ count) (apartOf corePerm)
      (limit_ne_zero present nonempty memoryLimit)
      (contents_length_perm corePerm ▸ memoryLimit) coreEncoded
  have sliceCount : slices.length = segments.length :=
    (List.length_map _).symm.trans slicesPerm.length_eq
  have manifestLoaded {bundle : SnapshotBundle} :
      manifestFileWithLimits host path maxSegments maxTotalBytes =
          .ok bundle ↔
        (∀ segment ∈ segments, segment.upper < 2 ^ 64) ∧
          bundle = ⟨⟨format, path⟩, sortByStart segments⟩ := by
    rw [manifestFile_stored stored
      (fun none => presentIn slicesPerm (congrArg _ none))
      (fun slice member => nonempty slice.segment
        (slicesPerm.subset (List.mem_map_of_mem member)))
      (apartOf slicesPerm) (sliceCount ▸ segmentLimit)
      (limit_ne_zero present nonempty bytesLimit)
      (contents_length_perm slicesPerm ▸ bytesLimit), sameOrder slicesPerm]
    simp only [← slicesPerm.mem_iff, List.forall_mem_map]
  constructor
  · intro given
    obtain ⟨_, _, _, _, _, loaded, _, _⟩ := given
    exact (manifestLoaded.mp loaded).1
  · intro below
    exact ⟨_, _, _, limeLoaded, coreLoaded, manifestLoaded.mpr ⟨below, rfl⟩,
      sameMemory_of_segments rfl, sameMemory_of_segments rfl⟩

/-! A directory `/snap` with a manifest and the file that it slices. -/

def manifestPath : String := "/snap/manifest.json"

/-- The directory has no links, and `text` is the rendering of the manifest. -/
def snapHost (text : String) (manifest ram : Buffer)
    (slices : List ManifestSlice) : Host where
  canonicalize := fun path => .ok path
  openFile := fun path =>
    if path = Path.parse manifestPath then .ok (diskFile manifest)
    else if path = Path.parse "/snap/ram.bin" then .ok (diskFile ram)
    else .error "No such file or directory (os error 2)"
  fromStr := fun given =>
    if given = text then .ok (manifestJson "raw" slices)
    else .error "expected value at line 1 column 1"
  utf8Error := fun _ => "invalid utf-8 sequence"

theorem snapHost_stored {text : String} {manifest ram : Buffer}
    (written : ⟨manifest.bytes.toArray⟩ = text.toUTF8)
    (small : manifest.length ≤ defaultMaxManifestSize.toNat)
    {slices : List ManifestSlice}
    (sliced : ∀ slice ∈ slices, slice.file = "ram.bin" ∧
      Data.slice ram.bytes slice.fileOffset.toNat
        (slice.fileOffset.toNat + slice.segment.data.length) =
          some slice.segment.data.bytes) :
    ManifestStored (snapHost text manifest ram slices) manifestPath "raw"
      slices where
  manifest := by
    refine ⟨_, manifest, text, rfl, diskFile_holds manifest, small, ?_,
      if_pos rfl⟩
    rw [written]
    exact dif_pos text.isValidUTF8
  files := by
    refine ⟨Path.parse "/snap", by rfl, ?_⟩
    intro slice member
    obtain ⟨named, inside⟩ := sliced slice member
    refine ⟨?_, Path.parse "/snap/ram.bin", diskFile ram, ram, ?_, by decide,
      ?_, diskFile_holds _, inside⟩
    · rw [named]
      decide
    · rw [named]
      change Except.ok
        (Path.join (Path.parse "/snap") (Path.parse "ram.bin")) = _
      exact congrArg Except.ok (by decide)
    · have other : Path.parse "/snap/ram.bin" ≠ Path.parse manifestPath := by
        decide
      simp only [snapHost, if_neg other, if_true]

/-- Two pieces in the middle of the address space, from the top down, are the
same memory in all three formats. -/
theorem upperPiece_bounded : ([7] : List UInt8).length < 2 ^ 63 := by decide

def upperPiece : SnapshotSegment :=
  .new ⟨0x2000⟩ ⟨[7], upperPiece_bounded⟩

theorem lowerPiece_bounded : ([5, 6] : List UInt8).length < 2 ^ 63 := by decide

def lowerPiece : SnapshotSegment :=
  .new ⟨0x1000⟩ ⟨[5, 6], lowerPiece_bounded⟩

def middleText : String :=
  "\x7b\"version\":1,\"format\":\"raw\",\"segments\":[\x7b" ++
    "\"file\":\"ram.bin\",\"gpa\":8192,\"file_offset\":0,\"length\":1" ++
    "\x7d,\x7b" ++
    "\"file\":\"ram.bin\",\"gpa\":4096,\"file_offset\":1,\"length\":2" ++
    "\x7d]\x7d"

def middleManifest : Buffer :=
  ⟨middleText.toUTF8.data.toList, by decide +kernel⟩

def middleRam : Buffer :=
  ⟨[7, 5, 6], by decide⟩

def middleSlices : List ManifestSlice :=
  [⟨"ram.bin", 0, upperPiece⟩, ⟨"ram.bin", 1, lowerPiece⟩]

def middleHost : Host :=
  snapHost middleText middleManifest middleRam middleSlices

theorem middleHost_stored :
    ManifestStored middleHost manifestPath "raw" middleSlices := by
  refine snapHost_stored rfl (by decide +kernel) ?_
  rw [middleSlices, List.forall_mem_cons, List.forall_mem_singleton]
  exact ⟨⟨rfl, by decide⟩, rfl, by decide⟩

theorem pieces_apart : [upperPiece, lowerPiece].Pairwise Apart :=
  List.pairwise_pair.mpr (.inr (show (0x1002 : Nat) ≤ 0x2000 by decide))

theorem loaders_agree_middle :
    ∃ fromLimeFile fromCore fromManifest,
      fromLime "m.lime" ⟨limeImage [lowerPiece, upperPiece],
          by decide +kernel⟩ = .ok fromLimeFile ∧
      fromElfWithLimits "m.elf" ⟨coreImage [upperPiece, lowerPiece],
          by decide +kernel⟩ "elf-vmcore" defaultMaxArtifactSize =
        .ok fromCore ∧
      manifestFileWithLimits middleHost manifestPath 65536
        defaultMaxArtifactSize = .ok fromManifest ∧
      SameMemory fromLimeFile fromCore ∧ SameMemory fromCore fromManifest :=
  (loaders_agree_iff (by simp) (by decide) (by decide) (by decide)
    pieces_apart (.swap upperPiece lowerPiece []) (.refl _) (.refl _) rfl rfl
    middleHost_stored (by decide) (by decide) (by decide) _ _ _).mpr (by decide)

/-- The last byte of the address space is loaded from a LiME file and from a
core, and refused in a manifest. -/
def lastByteText : String :=
  "\x7b\"version\":1,\"format\":\"raw\",\"segments\":[\x7b" ++
    "\"file\":\"ram.bin\",\"gpa\":18446744073709551615," ++
    "\"file_offset\":0,\"length\":1\x7d]\x7d"

def lastByteManifest : Buffer :=
  ⟨lastByteText.toUTF8.data.toList, by decide +kernel⟩

def lastByteCore : Buffer :=
  ⟨coreImage [lastByte], by decide +kernel⟩

/-- The whole file is the last byte. -/
def lastByteSlice : ManifestSlice :=
  ⟨"ram.bin", 0, lastByte⟩

theorem last_byte_refused_by_manifest :
    lastByte.upper = 2 ^ 64 ∧
      ManifestStored (snapHost lastByteText lastByteManifest lastByte.data
        [lastByteSlice]) manifestPath "raw" [lastByteSlice] ∧
      (∃ bundle, fromLime "last.lime" lastByteImage = .ok bundle) ∧
      (∃ bundle, fromElfVmcore "last.elf" lastByteCore = .ok bundle) ∧
      ∀ bundle, manifestFileWithLimits
        (snapHost lastByteText lastByteManifest lastByte.data [lastByteSlice])
          manifestPath 65536 defaultMaxArtifactSize ≠ .ok bundle := by
  have stored :
      ManifestStored (snapHost lastByteText lastByteManifest lastByte.data
        [lastByteSlice]) manifestPath "raw" [lastByteSlice] :=
    snapHost_stored rfl (by decide +kernel) (List.forall_mem_singleton.mpr
      ⟨rfl, by decide⟩)
  have alone : [lastByte].Pairwise Apart := List.pairwise_singleton _ _
  have limeLoaded : fromLime "last.lime" lastByteImage =
      .ok ⟨⟨"lime", "last.lime"⟩, sortByStart [lastByte]⟩ :=
    fromLime_limeImage "last.lime" (by simp) (by decide) (by decide) alone rfl
  have coreLoaded : fromElfVmcore "last.elf" lastByteCore =
      .ok ⟨⟨"elf-vmcore", "last.elf"⟩, sortByStart [lastByte]⟩ :=
    fromElf_coreImage "last.elf" "elf-vmcore" (by simp) (by decide) alone
      (by decide) (by decide) rfl
  refine ⟨by decide, stored, ⟨_, limeLoaded⟩, ⟨_, coreLoaded⟩, ?_⟩
  intro bundle loaded
  have below := (manifestFile_stored stored (by simp) (by decide) alone
    (by decide) (by decide) (by decide)).mp loaded
  exact absurd (below.1 lastByteSlice (List.mem_singleton_self _))
    (by decide)

end LibVmi.Artifact
