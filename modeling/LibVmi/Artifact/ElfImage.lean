import LibVmi.Artifact.Elf

namespace LibVmi.Artifact

open Data

/-! Cores made from a list of segments: one `PT_LOAD` header a segment, with its
whole memory in the file, and the memory after the table in the same order. -/

def coreHeaders (offset : Nat) : List SnapshotSegment → List ProgramHeader
  | [] => []
  | segment :: rest =>
      ⟨UInt64.ofNat offset, segment.range.start.raw, segment.range.length,
        segment.range.length⟩ ::
        coreHeaders (offset + segment.data.length) rest

def contents (segments : List SnapshotSegment) : List UInt8 :=
  segments.flatMap fun segment => segment.data.bytes

def coreImage (segments : List SnapshotSegment) : List UInt8 :=
  elfImage (coreHeaders (64 + 56 * segments.length) segments)
    (contents segments)

@[simp] theorem contents_cons (segment : SnapshotSegment)
    (rest : List SnapshotSegment) :
    contents (segment :: rest) = segment.data.bytes ++ contents rest :=
  List.flatMap_cons

theorem contents_length_cons (segment : SnapshotSegment)
    (rest : List SnapshotSegment) :
    (contents (segment :: rest)).length =
      segment.data.length + (contents rest).length := by
  rw [contents_cons, List.length_append]
  rfl

theorem contents_length_perm {left right : List SnapshotSegment}
    (permuted : left.Perm right) :
    (contents left).length = (contents right).length :=
  (permuted.flatMap_right _).length_eq

@[simp] theorem coreHeaders_length (offset : Nat)
    (segments : List SnapshotSegment) :
    (coreHeaders offset segments).length = segments.length := by
  induction segments generalizing offset with
  | nil => rfl
  | cons segment rest induction =>
      simp only [coreHeaders, List.length_cons, induction]

@[simp] theorem ProgramHeader.encode_length (header : ProgramHeader) :
    header.encode.length = 56 := by
  simp [ProgramHeader.encode]

/-- A header is read back from its encoding in the table. -/
theorem programHeaderAt_encode {data : Buffer} {index : Nat}
    {header : ProgramHeader} (small : index < 2 ^ 16)
    (encoded : slice data.bytes (64 + 56 * index) (64 + 56 * index + 56) =
      some header.encode) :
    programHeaderAt data 64 56 (UInt64.ofNat index) = .ok (some header) := by
  have whole := data.length_lt_limit
  have within := (slice_length encoded).2
  change _ ≤ data.length at within
  simp only [ProgramHeader.encode, slice_eq_append, toLe_length] at encoded
  obtain ⟨kind, _, fileOffset, _, physical, fileSize, memorySize, _⟩ := encoded
  have indexEq : (UInt64.ofNat index).toNat = index :=
    UInt64.toNat_ofNat_of_lt' (by simp only [UInt64.size]; omega)
  have distanceEq : (UInt64.ofNat (56 * index)).toNat = 56 * index :=
    UInt64.toNat_ofNat_of_lt' (by simp only [UInt64.size]; omega)
  have positionEq : (UInt64.ofNat (64 + 56 * index)).toNat = 64 + 56 * index :=
    UInt64.toNat_ofNat_of_lt' (by simp only [UInt64.size]; omega)
  simp only [programHeaderAt, bind_eq_ok, okOr_eq_ok, checkedMul_eq_some,
    checkedAdd_eq_some, unsigned_toNat_uint64]
  refine ⟨UInt64.ofNat (56 * index), ?_, UInt64.ofNat (64 + 56 * index), ?_, 1,
    ?_, ?_⟩
  · rw [distanceEq, indexEq, Nat.mul_comm]
    rfl
  · rw [positionEq, distanceEq]
    rfl
  · rw [positionEq]
    exact readU32_eq_ok.mpr kind
  · simp only [ne_eq, not_true_eq_false, if_false, positionEq, bind_eq_ok,
      addOffset_eq_ok, readU64_eq_ok, pure_eq_ok, Except.ok.injEq,
      Option.some.injEq, and_assoc, exists_eq_left]
    have limit : Usize.limit = 2 ^ 64 := rfl
    exact ⟨by omega, header.fileOffset, fileOffset, by omega, header.physical,
      physical, by omega, header.fileSize, fileSize, by omega,
      header.memorySize, memorySize, rfl⟩

/-- The segment of a header is read back from the memory it points to. -/
theorem loadSegment_core {data : Buffer} {maxMemorySize total : UInt64}
    {offset : Nat} {segment : SnapshotSegment}
    (stored : slice data.bytes offset (offset + segment.data.length) =
      some segment.data.bytes)
    (within : total.toNat + segment.data.length ≤ maxMemorySize.toNat) :
    loadSegment data maxMemorySize total
        ⟨UInt64.ofNat offset, segment.range.start.raw, segment.range.length,
          segment.range.length⟩ =
      .ok (segment, UInt64.ofNat (total.toNat + segment.data.length)) := by
  have whole := data.length_lt_limit
  have bounds := slice_length stored
  change _ ∧ _ ≤ data.length at bounds
  have limit := maxMemorySize.toNat_lt
  have offsetEq : (UInt64.ofNat offset).toNat = offset :=
    UInt64.toNat_ofNat_of_lt' (by
      change offset < Usize.limit
      omega)
  have totalEq : (UInt64.ofNat (total.toNat + segment.data.length)).toNat =
      total.toNat + segment.data.length :=
    UInt64.toNat_ofNat_of_lt' (by simp only [UInt64.size]; omega)
  refine loadSegment_eq_ok.mpr ⟨Nat.le_refl _, ?_, ?_, segment.data,
    segment.data, ?_, ?_, segment.new_self.symm⟩
  · rw [totalEq, segment.length_eq]
  · rw [totalEq]
    exact within
  · rw [offsetEq, segment.length_eq]
    exact stored
  · rw [Nat.sub_self, List.replicate_zero, List.append_nil]

/-- Along the table, each header gives back its segment. -/
theorem loadSegments_core {data : Buffer} {maxMemorySize total : UInt64}
    {first offset : Nat} {segments : List SnapshotSegment}
    (table : slice data.bytes (64 + 56 * first)
      (64 + 56 * (first + segments.length)) =
        some ((coreHeaders offset segments).flatMap ProgramHeader.encode))
    (stored : slice data.bytes offset (offset + (contents segments).length) =
      some (contents segments))
    (count : first + segments.length < 2 ^ 16)
    (within : total.toNat + (contents segments).length ≤
      maxMemorySize.toNat) :
    loadSegments data 64 56 maxMemorySize
        ((List.range' first segments.length).map UInt64.ofNat) total =
      .ok segments := by
  induction segments generalizing first offset total with
  | nil => rfl
  | cons segment rest induction =>
      rw [List.length_cons] at table count
      rw [contents_length_cons] at stored within
      simp only [coreHeaders, List.flatMap_cons, slice_eq_append,
        ProgramHeader.encode_length] at table
      simp only [contents_cons, slice_eq_append] at stored
      have header := programHeaderAt_encode (by omega) table.1
      have room : total.toNat + segment.data.length ≤
          maxMemorySize.toNat := by omega
      have totalEq :
          (UInt64.ofNat (total.toNat + segment.data.length)).toNat =
            total.toNat + segment.data.length := by
        have limit := maxMemorySize.toNat_lt
        exact UInt64.toNat_ofNat_of_lt' (by simp only [UInt64.size]; omega)
      have nextTable : slice data.bytes (64 + 56 * (first + 1))
          (64 + 56 * (first + 1 + rest.length)) =
            some ((coreHeaders (offset + segment.data.length) rest).flatMap
              ProgramHeader.encode) := by
        rw [← table.2]
        congr 1
        omega
      have nextStored : slice data.bytes (offset + segment.data.length)
          (offset + segment.data.length + (contents rest).length) =
            some (contents rest) := by
        rw [Nat.add_assoc]
        exact stored.2
      rw [List.length_cons, List.range'_succ, List.map_cons, loadSegments,
        header, ok_bind]
      simp only [loadSegment_core stored.1 room, ok_bind]
      rw [induction nextTable nextStored (by omega) (by omega)]
      rfl

@[simp] theorem encode_flatMap_length (headers : List ProgramHeader) :
    (headers.flatMap ProgramHeader.encode).length = 56 * headers.length := by
  simp [List.length_flatMap, Nat.mul_comm]

/-- Where the parts of an image lie. -/
structure ElfLayout (data : Buffer) (headers : List ProgramHeader)
    (payload : List UInt8) : Prop where
  recognised : 64 ≤ data.length ∧ elfMagic <+: data.bytes ∧
    data.bytes[4]? = some 2 ∧ data.bytes[5]? = some 1
  programOffset : readU64 data 32 = .ok 64
  entrySize : readU16 data 54 = .ok 56
  entryCount : slice data.bytes 56 58 = some (toLe 2 headers.length)
  table : slice data.bytes 64 (64 + 56 * headers.length) =
    some (headers.flatMap ProgramHeader.encode)
  payload : slice data.bytes (64 + 56 * headers.length) data.length =
    some payload

theorem elfImage_layout {data : Buffer} {headers : List ProgramHeader}
    {payload : List UInt8} (encoded : data.bytes = elfImage headers payload) :
    ElfLayout data headers payload := by
  have magicLength : elfMagic.length = 4 := by decide
  have whole : slice data.bytes 0 data.length =
      some (elfImage headers payload) := by
    rw [slice_eq_some]
    exact ⟨[], [], by simp [encoded], rfl, by simp [Buffer.length, encoded]⟩
  simp only [elfImage, slice_eq_append, toLe_length, magicLength,
    List.length_replicate, List.length_cons, List.length_nil, Nat.reduceAdd,
    Nat.zero_add, encode_flatMap_length] at whole
  obtain ⟨_, _, _, offset, _, size, number, _, table, memory⟩ := whole
  have length := (slice_length memory)
  refine ⟨⟨by omega, ?_, ?_, ?_⟩, readU64_eq_ok.mpr offset,
    readU16_eq_ok.mpr size, number, table, memory⟩
  · exact encoded ▸ List.prefix_append _ _
  · rw [encoded]
    rfl
  · rw [encoded]
    rfl

/-- The loader undoes the encoding. -/
theorem fromElf_coreImage (source format : String)
    {segments : List SnapshotSegment} (present : segments ≠ [])
    (count : segments.length ≤ 65535) (apart : segments.Pairwise Apart)
    {maxMemorySize : UInt64} (positive : maxMemorySize ≠ 0)
    (within : (contents segments).length ≤ maxMemorySize.toNat)
    {data : Buffer} (encoded : data.bytes = coreImage segments) :
    fromElfWithLimits source data format maxMemorySize =
      .ok ⟨⟨format, source⟩, sortByStart segments⟩ := by
  have layout := elfImage_layout encoded
  have countEq : (UInt16.ofNat segments.length).toNat = segments.length :=
    UInt16.toNat_ofNat_of_lt' (by simp only [UInt16.size]; omega)
  have countRead : readU16 data 56 = .ok (UInt16.ofNat segments.length) := by
    rw [readU16_eq_ok, countEq]
    simpa using layout.entryCount
  have table := layout.table
  have memory := layout.payload
  rw [coreHeaders_length] at table memory
  have loaded : loadSegments data 64 (56 : UInt16).toUInt64 maxMemorySize
      (indices (UInt16.ofNat segments.length)) 0 = .ok segments := by
    rw [indices, countEq, List.range_eq_range']
    apply loadSegments_core
    · simpa using table
    · rw [(slice_length memory).1]
      exact memory
    · omega
    · simpa using within
  exact fromElf_eq_ok.mpr ⟨positive, layout.recognised, 64,
    layout.programOffset, 56, layout.entrySize, _, countRead, by decide,
    segments, loaded, present, arrange_of_apart _ apart, rfl⟩

end LibVmi.Artifact
