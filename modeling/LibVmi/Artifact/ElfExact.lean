import LibVmi.Artifact.Elf

namespace LibVmi.Artifact

open Data Intervals

/-! A core as the format reads it: every field at its offset, apart from the
order in which the loader comes to it. -/

namespace Elf64

def programOffset (data : Buffer) : Nat := fieldAt data 32 8

def entrySize (data : Buffer) : Nat := fieldAt data 54 2

def entryCount (data : Buffer) : Nat := fieldAt data 56 2

def Identified (data : Buffer) : Prop :=
  64 ≤ data.length ∧ elfMagic <+: data.bytes ∧ data.bytes[4]? = some 2 ∧
    data.bytes[5]? = some 1

def position (data : Buffer) (index : Nat) : Nat :=
  programOffset data + index * entrySize data

def IsLoad (data : Buffer) (index : Nat) : Prop :=
  fieldAt data (position data index) 4 = 1

instance decidableIsLoad (data : Buffer) (index : Nat) :
    Decidable (IsLoad data index) :=
  inferInstanceAs (Decidable (_ = _))

def header (data : Buffer) (index : Nat) : ProgramHeader where
  fileOffset := UInt64.ofNat (fieldAt data (position data index + 8) 8)
  physical := UInt64.ofNat (fieldAt data (position data index + 24) 8)
  fileSize := UInt64.ofNat (fieldAt data (position data index + 32) 8)
  memorySize := UInt64.ofNat (fieldAt data (position data index + 40) 8)

/-- How much of a header has a meaning here. -/
def headerWidth (data : Buffer) (index : Nat) : Nat :=
  if IsLoad data index then 48 else 4

/-- The `PT_LOAD` headers among the listed ones. -/
def loadsAmong (data : Buffer) (table : List Nat) : List ProgramHeader :=
  (table.filter (IsLoad data)).map (header data)

def loads (data : Buffer) : List ProgramHeader :=
  loadsAmong data (List.range (entryCount data))

def memoryTotal (headers : List ProgramHeader) : Nat :=
  (headers.map fun header => header.memorySize.toNat).sum

/-- Where a header places its memory, and what is there. -/
def content (data : Buffer) (header : ProgramHeader) : UInt64 × List UInt8 :=
  (header.physical,
    (data.bytes.drop header.fileOffset.toNat).take header.fileSize.toNat ++
      List.replicate (header.memorySize.toNat - header.fileSize.toNat) 0)

/-- The file part of a header. -/
structure FilePart (data : Buffer) (header : ProgramHeader) : Prop where
  inMemory : header.fileSize.toNat ≤ header.memorySize.toNat
  inFile : header.fileOffset.toNat + header.fileSize.toNat ≤ data.length

/-- What can be wrong with a core. -/
inductive Defect (data : Buffer) (maxMemorySize : UInt64) : Prop
  | noMemory (zero : maxMemorySize = 0)
  | unidentified (other : ¬ Identified data)
  | smallEntries (small : entrySize data < 56)
  | headerOutside (index : Nat) (listed : index < entryCount data)
      (outside : data.length < position data index + headerWidth data index)
  | fileOutside (header : ProgramHeader) (load : header ∈ loads data)
      (outside : data.length <
        header.fileOffset.toNat + header.fileSize.toNat)
  | fileTooLarge (header : ProgramHeader) (load : header ∈ loads data)
      (larger : header.memorySize.toNat < header.fileSize.toNat)
  | memoryTooLarge (larger : maxMemorySize.toNat < memoryTotal (loads data))
  | overlapping (left right : ProgramHeader)
      (listed : List.Sublist [left, right] (loads data))
      (overlap : Overlap (fun header => header.bounds.1)
        (fun header => header.bounds.2) left right)
  | noLoads (none : loads data = [])

end Elf64

def SnapshotSegment.content (segment : SnapshotSegment) :
    UInt64 × List UInt8 :=
  (segment.range.start.raw, segment.data.bytes)

open Elf64

section Table

variable {data : Buffer} {start size : UInt64}

/-- The fields of a `PT_LOAD` header that starts at the offset. -/
theorem headerFields_iff {offset index : Nat}
    (placed : position data index = offset) {found : Option ProgramHeader} :
    (do let fileOffset ← readU64 data (← addOffset offset 8)
        let physical ← readU64 data (← addOffset offset 24)
        let fileSize ← readU64 data (← addOffset offset 32)
        let memorySize ← readU64 data (← addOffset offset 40)
        return some ⟨fileOffset, physical, fileSize, memorySize⟩ :
          Result (Option ProgramHeader)) = .ok found ↔
      offset + 48 ≤ data.length ∧ found = some (header data index) := by
  have whole := data.length_lt_limit
  have limit : Usize.limit = 2 ^ 64 := rfl
  subst placed
  simp only [bind_eq_ok, addOffset_eq_ok, readU64_eq_field, pure_eq_ok,
    Except.ok.injEq, ofField_iff, and_assoc, exists_eq_left]
  constructor
  · intro given
    obtain ⟨_, fileOffset, _, firstEq, _, physical, _, secondEq, _, fileSize,
      _, thirdEq, _, memorySize, within, fourthEq, rfl⟩ := given
    refine ⟨by omega, ?_⟩
    rw [firstEq, secondEq, thirdEq, fourthEq]
    rfl
  · intro given
    obtain ⟨within, rfl⟩ := given
    exact ⟨by omega, _, by omega, rfl, by omega, _, by omega, rfl, by omega, _,
      by omega, rfl, by omega, _, by omega, rfl, rfl⟩

/-- The kind of a header that starts at the offset, and its fields where the
kind has any. -/
theorem headerRead_iff {offset index : Nat}
    (placed : position data index = offset) {found : Option ProgramHeader} :
    (do let kind ← readU32 data offset
        if kind ≠ 1 then .ok none
        else do
          let fileOffset ← readU64 data (← addOffset offset 8)
          let physical ← readU64 data (← addOffset offset 24)
          let fileSize ← readU64 data (← addOffset offset 32)
          let memorySize ← readU64 data (← addOffset offset 40)
          return some ⟨fileOffset, physical, fileSize, memorySize⟩ :
            Result (Option ProgramHeader)) = .ok found ↔
      offset + headerWidth data index ≤ data.length ∧
        found = if IsLoad data index then some (header data index)
          else none := by
  rw [bind_eq_ok]
  simp only [readU32_eq_field]
  by_cases load : IsLoad data index
  · have width : headerWidth data index = 48 := if_pos load
    have loadAt := load
    rw [IsLoad, placed] at loadAt
    rw [width, if_pos load]
    constructor
    · intro given
      obtain ⟨kind, ⟨_, held⟩, rest⟩ := given
      have one : kind = 1 := by
        rw [← UInt32.toNat_inj, ← held]
        exact loadAt
      rw [if_neg (not_not.mpr one)] at rest
      exact (headerFields_iff placed).mp rest
    · intro given
      refine ⟨1, ⟨by omega, loadAt⟩, ?_⟩
      rw [if_neg (not_not.mpr rfl)]
      exact (headerFields_iff placed).mpr given
  · have width : headerWidth data index = 4 := if_neg load
    have otherAt := load
    rw [IsLoad, placed] at otherAt
    rw [width, if_neg load]
    constructor
    · intro given
      obtain ⟨kind, ⟨within, held⟩, rest⟩ := given
      have other : kind ≠ 1 := by
        intro one
        rw [one] at held
        exact otherAt held
      rw [if_pos other] at rest
      exact ⟨within, (Except.ok.inj rest).symm⟩
    · intro given
      obtain ⟨within, rfl⟩ := given
      obtain ⟨kind, read⟩ := readU32_of_within within
      have held := (readU32_eq_field.mp read).2
      refine ⟨kind, ⟨within, held⟩, ?_⟩
      rw [if_pos]
      intro one
      rw [one] at held
      exact otherAt held

/-- A header is read exactly when the part of it with a meaning lies in the
file. -/
theorem programHeaderAt_iff {index : UInt64}
    (startEq : start.toNat = programOffset data)
    (sizeEq : size.toNat = entrySize data) (few : index.toNat < 65536)
    {found : Option ProgramHeader} :
    programHeaderAt data start size index = .ok found ↔
      position data index.toNat + headerWidth data index.toNat ≤
          data.length ∧
        found = if IsLoad data index.toNat then
          some (header data index.toNat) else none := by
  have whole := data.length_lt_limit
  have limit : Usize.limit = 2 ^ 64 := rfl
  have sizeBound : size.toNat < 65536 := sizeEq ▸ fieldAt_lt data 54 2
  have distanceBound : index.toNat * size.toNat < 65536 * 65536 :=
    Nat.mul_lt_mul'' few sizeBound
  have distanceEq :
      (UInt64.ofNat (index.toNat * size.toNat)).toNat =
        index.toNat * size.toNat :=
    UInt64.toNat_ofNat_of_lt' (by simp only [UInt64.size]; omega)
  have computed : checkedMul index size =
      some (UInt64.ofNat (index.toNat * size.toNat)) :=
    checkedMul_eq_some.mpr distanceEq
  have placed : position data index.toNat =
      start.toNat + index.toNat * size.toNat := by
    rw [position, startEq, sizeEq]
  rw [programHeaderAt, computed, okOr_some, ok_bind]
  by_cases fits : position data index.toNat < 2 ^ 64
  · have wordEq : (UInt64.ofNat (position data index.toNat)).toNat =
        position data index.toNat :=
      UInt64.toNat_ofNat_of_lt' fits
    have added : checkedAdd start (UInt64.ofNat (index.toNat * size.toNat)) =
        some (UInt64.ofNat (position data index.toNat)) := by
      rw [checkedAdd_eq_some]
      rw [unsigned_toNat_uint64, wordEq, unsigned_toNat_uint64,
        unsigned_toNat_uint64, distanceEq, placed]
    rw [added, okOr_some, ok_bind]
    simp only [wordEq]
    exact headerRead_iff rfl
  · have overflow :
        checkedAdd start (UInt64.ofNat (index.toNat * size.toNat)) = none := by
      rw [checkedAdd, tryFrom, if_neg]
      rw [unsigned_toNat_uint64, unsigned_toNat_uint64, distanceEq, ← placed]
      exact fits
    rw [overflow]
    constructor
    · intro given
      cases given
    · intro given
      omega

/-- The segment of a header holds what the header declares. -/
theorem loadSegment_iff {maxMemorySize total total' : UInt64}
    {header : ProgramHeader} {segment : SnapshotSegment} :
    loadSegment data maxMemorySize total header = .ok (segment, total') ↔
      FilePart data header ∧
        total'.toNat = total.toNat + header.memorySize.toNat ∧
        total'.toNat ≤ maxMemorySize.toNat ∧
        segment.content = content data header := by
  rw [loadSegment_eq_ok]
  constructor
  · intro given
    obtain ⟨inMemory, totalEq, within, source, bytes, taken, filled, rfl⟩ :=
      given
    have bounds := slice_length taken
    refine ⟨⟨inMemory, bounds.2⟩, totalEq, within, ?_⟩
    rw [SnapshotSegment.content, SnapshotSegment.new_data, filled, content]
    unfold slice at taken
    rw [if_pos ⟨Nat.le_add_right _ _, bounds.2⟩, Option.some.injEq,
      Nat.add_sub_cancel_left] at taken
    rw [taken]
    rfl
  · intro given
    obtain ⟨part, totalEq, within, same⟩ := given
    obtain ⟨source, taken⟩ := slice_exists (Nat.le_add_right _ _) part.inFile
    have bounds := slice_length taken
    have whole := data.length_lt
    refine ⟨part.inMemory, totalEq, within, ⟨source, by omega⟩, segment.data,
      taken, ?_, ?_⟩
    · have bytes := congrArg Prod.snd same
      simp only [SnapshotSegment.content, content] at bytes
      unfold slice at taken
      rw [if_pos ⟨Nat.le_add_right _ _, bounds.2⟩, Option.some.injEq,
        Nat.add_sub_cancel_left] at taken
      rw [bytes, taken]
    · have start := congrArg Prod.fst same
      simp only [SnapshotSegment.content, content] at start
      rw [← start]
      exact segment.new_self.symm

theorem loadsAmong_cons_load {index : Nat} (load : IsLoad data index)
    (rest : List Nat) :
    loadsAmong data (index :: rest) =
      header data index :: loadsAmong data rest := by
  rw [loadsAmong, List.filter_cons_of_pos (by simpa using load), List.map_cons]
  rfl

theorem loadsAmong_cons_other {index : Nat} (other : ¬ IsLoad data index)
    (rest : List Nat) :
    loadsAmong data (index :: rest) = loadsAmong data rest := by
  rw [loadsAmong, List.filter_cons_of_neg (by simpa using other)]
  rfl

/-- The loop along the table. -/
theorem loadSegments_iff {maxMemorySize total : UInt64}
    (startEq : start.toNat = programOffset data)
    (sizeEq : size.toNat = entrySize data) {table : List Nat}
    (few : ∀ index ∈ table, index < 65536)
    (spent : total.toNat ≤ maxMemorySize.toNat)
    {segments : List SnapshotSegment} :
    loadSegments data start size maxMemorySize (table.map UInt64.ofNat) total =
        .ok segments ↔
      (∀ index ∈ table,
        position data index + headerWidth data index ≤ data.length) ∧
      (∀ header ∈ loadsAmong data table, FilePart data header) ∧
      total.toNat + memoryTotal (loadsAmong data table) ≤
        maxMemorySize.toNat ∧
      segments.map SnapshotSegment.content =
        (loadsAmong data table).map (content data) := by
  induction table generalizing total segments with
  | nil =>
      simp only [List.map_nil, loadSegments, Except.ok.injEq]
      constructor
      · intro none
        subst none
        exact ⟨by simp, by simp [loadsAmong], spent, rfl⟩
      · intro given
        exact (List.map_eq_nil_iff.mp given.2.2.2).symm
  | cons index rest induction =>
      simp only [List.forall_mem_cons] at few
      have indexEq : (UInt64.ofNat index).toNat = index :=
        UInt64.toNat_ofNat_of_lt' (by simp only [UInt64.size]; omega)
      have headerRead := fun found => @programHeaderAt_iff data start size
        (UInt64.ofNat index) startEq sizeEq (by omega) found
      rw [indexEq] at headerRead
      rw [List.map_cons, loadSegments, bind_eq_ok]
      simp only [headerRead, and_assoc, List.forall_mem_cons]
      by_cases load : IsLoad data index
      · simp only [if_pos load, exists_and_left, exists_eq_left,
          loadsAmong_cons_load load, bind_eq_ok, Prod.exists, pure_eq_ok,
          Except.ok.injEq, List.map_cons, List.forall_mem_cons, memoryTotal,
          List.sum_cons, loadSegment_iff]
        apply and_congr_right
        intro _
        constructor
        · intro given
          obtain ⟨segment, total', ⟨part, totalEq, within, same⟩, others,
            loaded, rfl⟩ := given
          obtain ⟨inside, parts, sum, contents⟩ :=
            (induction few.2 within).mp loaded
          rw [memoryTotal] at sum
          exact ⟨inside, ⟨part, parts⟩, by omega, by
            rw [List.map_cons, same, contents]⟩
        · intro given
          obtain ⟨inside, ⟨part, parts⟩, sum, contents⟩ := given
          obtain ⟨segment, others, rfl, same, contents⟩ :=
            List.map_eq_cons_iff.mp contents
          have limit := maxMemorySize.toNat_lt
          have totalEq : (UInt64.ofNat (total.toNat +
              (header data index).memorySize.toNat)).toNat =
                total.toNat + (header data index).memorySize.toNat :=
            UInt64.toNat_ofNat_of_lt' (by simp only [UInt64.size]; omega)
          refine ⟨segment, _, ⟨part, totalEq, by omega, same⟩, others, ?_, rfl⟩
          apply (induction few.2 (by omega)).mpr
          rw [memoryTotal]
          exact ⟨inside, parts, by omega, contents⟩
      · simp only [if_neg load, exists_and_left, exists_eq_left,
          loadsAmong_cons_other load]
        rw [induction few.2 spent]

end Table

section Core

variable {data : Buffer}

theorem content_length {header : ProgramHeader} (part : FilePart data header) :
    (content data header).2.length = header.memorySize.toNat := by
  have within := part.inFile
  have ordered := part.inMemory
  unfold Buffer.length at within
  simp only [content, List.length_append, List.length_take, List.length_drop,
    List.length_replicate]
  omega

/-- Headers that do not overlap make segments that do not. -/
theorem segments_apart {segments : List SnapshotSegment}
    (parts : ∀ header ∈ loads data, FilePart data header)
    (contents : segments.map SnapshotSegment.content =
      (loads data).map (content data))
    (apart : ∀ left right, List.Sublist [left, right] (loads data) →
      ¬ Overlap (fun header : ProgramHeader => header.bounds.1)
        (fun header => header.bounds.2) left right) :
    segments.Pairwise NoOverlap := by
  have placed : (segments.map SnapshotSegment.content).Pairwise
      fun left right => ¬ (left.1.toNat < right.1.toNat + right.2.length ∧
        right.1.toNat < left.1.toNat + left.2.length) := by
    rw [contents, List.pairwise_map, List.pairwise_iff_forall_sublist]
    intro left right listed
    rw [content_length (parts left (listed.subset (by simp))),
      content_length (parts right (listed.subset (by simp)))]
    exact apart left right listed
  rw [List.pairwise_map] at placed
  apply placed.imp
  intro left right apart overlap
  unfold Overlap at overlap
  rw [left.upper_eq, right.upper_eq] at overlap
  exact apart overlap

/-- Segments that do not overlap are arranged. -/
theorem arrange_of_noOverlap (message : String)
    {segments : List SnapshotSegment} (apart : segments.Pairwise NoOverlap) :
    arrange message segments = .ok (sortByStart segments) := by
  refine arrange_eq_ok.mpr ⟨rfl, List.Pairwise.isChain ?_⟩
  apply apart.perm (sortByStart_perm segments).symm
  intro left right apart overlap
  exact apart overlap.symm

theorem exists_segments {headers : List ProgramHeader}
    (parts : ∀ header ∈ headers, FilePart data header)
    (allocates : ∀ header ∈ headers, header.memorySize.toNat < 2 ^ 63) :
    ∃ segments : List SnapshotSegment,
      segments.map SnapshotSegment.content = headers.map (content data) := by
  induction headers with
  | nil => exact ⟨[], rfl⟩
  | cons header rest induction =>
      simp only [List.forall_mem_cons] at parts allocates
      obtain ⟨segments, contents⟩ := induction parts.2 allocates.2
      have length := content_length parts.1
      have room := allocates.1
      refine ⟨.new ⟨header.physical⟩ ⟨(content data header).2, by omega⟩ ::
        segments, ?_⟩
      rw [List.map_cons, List.map_cons, contents]
      rfl

theorem identified_fields (identified : Identified data) :
    ∃ start size count, readU64 data 32 = .ok start ∧
      start.toNat = programOffset data ∧ readU16 data 54 = .ok size ∧
      size.toNat = entrySize data ∧ readU16 data 56 = .ok count ∧
      count.toNat = entryCount data := by
  have wide := identified.1
  obtain ⟨start, startRead⟩ : ∃ start, readU64 data 32 = .ok start :=
    readU64_of_within (by omega)
  have sizeEq : (UInt16.ofNat (entrySize data)).toNat = entrySize data :=
    UInt16.toNat_ofNat_of_lt' (fieldAt_lt data 54 2)
  have countEq : (UInt16.ofNat (entryCount data)).toNat = entryCount data :=
    UInt16.toNat_ofNat_of_lt' (fieldAt_lt data 56 2)
  exact ⟨start, _, _, startRead, (readU64_eq_field.mp startRead).2.symm,
    readU16_eq_field.mpr ⟨by omega, sizeEq.symm⟩, sizeEq,
    readU16_eq_field.mpr ⟨by omega, countEq.symm⟩, countEq⟩

/-- The loader of an identified core, with the fields it reads first. -/
theorem fromElf_iff {source format : String} {maxMemorySize : UInt64}
    {bundle : SnapshotBundle} :
    fromElfWithLimits source data format maxMemorySize = .ok bundle ↔
      maxMemorySize ≠ 0 ∧ Identified data ∧ 56 ≤ entrySize data ∧
      (∀ index < entryCount data,
        position data index + headerWidth data index ≤ data.length) ∧
      (∀ header ∈ loads data, FilePart data header) ∧
      memoryTotal (loads data) ≤ maxMemorySize.toNat ∧
      loads data ≠ [] ∧
      ∃ segments : List SnapshotSegment,
        segments.map SnapshotSegment.content =
          (loads data).map (content data) ∧
        arrange "ELF PT_LOAD physical ranges overlap" segments =
          .ok bundle.segments ∧
        bundle.provenance = ⟨format, source⟩ := by
  have few : ∀ index ∈ List.range (entryCount data), index < 65536 := by
    intro index listed
    exact Nat.lt_trans (List.mem_range.mp listed) (fieldAt_lt data 56 2)
  have present {segments : List SnapshotSegment}
      (contents : segments.map SnapshotSegment.content =
        (loads data).map (content data)) :
      segments ≠ [] ↔ loads data ≠ [] := by
    rw [ne_eq, ne_eq, ← List.map_eq_nil_iff (f := SnapshotSegment.content),
      contents, List.map_eq_nil_iff]
  rw [fromElf_eq_ok]
  constructor
  · intro given
    obtain ⟨positive, identified, start, startRead, size, sizeRead, count,
      countRead, wide, segments, loaded, nonempty, arranged, provenance⟩ :=
      given
    have startEq := (readU64_eq_field.mp startRead).2.symm
    have sizeEq := (readU16_eq_field.mp sizeRead).2.symm
    have countEq := (readU16_eq_field.mp countRead).2.symm
    rw [indices, countEq] at loaded
    obtain ⟨inside, parts, sum, contents⟩ := (loadSegments_iff startEq
      (by rw [UInt16.toNat_toUInt64]; exact sizeEq) few (Nat.zero_le _)).mp
        loaded
    rw [UInt64.toNat_zero, Nat.zero_add] at sum
    exact ⟨positive, identified, wide.trans_eq sizeEq,
      fun index listed => inside index (List.mem_range.mpr listed), parts, sum,
      (present contents).mp nonempty, segments, contents, arranged, provenance⟩
  · intro given
    obtain ⟨positive, identified, wide, inside, parts, sum, nonempty, segments,
      contents, arranged, provenance⟩ := given
    obtain ⟨start, size, count, startRead, startEq, sizeRead, sizeEq,
      countRead, countEq⟩ := identified_fields identified
    refine ⟨positive, identified, start, startRead, size, sizeRead, count,
      countRead, wide.trans_eq sizeEq.symm, segments, ?_,
      (present contents).mpr nonempty, arranged, provenance⟩
    rw [indices, countEq]
    apply (loadSegments_iff startEq
      (by rw [UInt16.toNat_toUInt64]; exact sizeEq) few (Nat.zero_le _)).mpr
    rw [UInt64.toNat_zero, Nat.zero_add]
    exact ⟨fun index listed => inside index (List.mem_range.mp listed), parts,
      sum, contents⟩

end Core

/-- A loaded core is made of what its `PT_LOAD` headers declare, and a core is
turned down only for a defect. -/
theorem elf_decoding_exact (source format : String) (data : Buffer)
    (maxMemorySize : UInt64)
    (allocates : ∀ header ∈ loads data, header.memorySize.toNat < 2 ^ 63) :
    (∀ bundle,
      fromElfWithLimits source data format maxMemorySize = .ok bundle →
        (bundle.segments.map SnapshotSegment.content).Perm
            ((loads data).map (content data)) ∧
          (∀ header ∈ loads data, FilePart data header) ∧
          SortedByStart bundle.segments ∧ 56 ≤ entrySize data ∧
          memoryTotal (loads data) ≤ maxMemorySize.toNat) ∧
      ∀ error,
        fromElfWithLimits source data format maxMemorySize = .error error →
          Defect data maxMemorySize := by
  constructor
  · intro bundle loaded
    obtain ⟨_, _, wide, _, parts, sum, _, segments, contents, arranged, _⟩ :=
      fromElf_iff.mp loaded
    obtain ⟨sortedEq, _⟩ := arrange_eq_ok.mp arranged
    refine ⟨?_, parts, sortedEq ▸ sortByStart_sorted segments, wide, sum⟩
    rw [sortedEq, ← contents]
    exact (sortByStart_perm segments).map _
  · intro error failed
    by_contra sound
    have parts : ∀ header ∈ loads data, FilePart data header := by
      intro header load
      constructor
      · by_contra larger
        exact sound (.fileTooLarge header load (Nat.lt_of_not_le larger))
      · by_contra outside
        exact sound (.fileOutside header load (Nat.lt_of_not_le outside))
    obtain ⟨segments, contents⟩ := exists_segments parts allocates
    have apart := segments_apart parts contents fun left right listed overlap =>
      sound (.overlapping left right listed overlap)
    have loaded : fromElfWithLimits source data format maxMemorySize =
        .ok ⟨⟨format, source⟩, sortByStart segments⟩ := by
      refine fromElf_iff.mpr ⟨?_, ?_, ?_, ?_, parts, ?_, ?_, segments, contents,
        arrange_of_noOverlap _ apart, rfl⟩
      · intro zero
        exact sound (.noMemory zero)
      · by_contra other
        exact sound (.unidentified other)
      · by_contra small
        exact sound (.smallEntries (Nat.lt_of_not_le small))
      · intro index listed
        by_contra outside
        exact sound (.headerOutside index listed (Nat.lt_of_not_le outside))
      · by_contra larger
        exact sound (.memoryTooLarge (Nat.lt_of_not_le larger))
      · intro none
        exact sound (.noLoads none)
    rw [loaded] at failed
    contradiction

/-- Two bytes of memory, of which the file has the first. -/
def halfZeroed : ProgramHeader := ⟨120, 0x1000, 1, 2⟩

def halfZeroedFile : Buffer :=
  ⟨elfImage [halfZeroed] [7], by decide +kernel⟩

theorem elf_decoding_exact_zero_fill :
    ∃ bundle, fromElfVmcore "half.elf" halfZeroedFile = .ok bundle ∧
      (bundle.segments.map SnapshotSegment.content).Perm
        [(0x1000, [7, 0])] := by
  have general := elf_decoding_exact "half.elf" "elf-vmcore"
    halfZeroedFile defaultMaxArtifactSize (by decide +kernel)
  have held : (loads halfZeroedFile).map (content halfZeroedFile) =
      [(0x1000, [7, 0])] := by
    decide +kernel
  have accepted : (fromElfVmcore "half.elf" halfZeroedFile).isOk = true := by
    decide +kernel
  cases decoded : fromElfVmcore "half.elf" halfZeroedFile with
  | error error =>
      rw [decoded] at accepted
      contradiction
  | ok bundle =>
      refine ⟨bundle, rfl, ?_⟩
      rw [← held]
      exact (general.1 bundle decoded).1

end LibVmi.Artifact
