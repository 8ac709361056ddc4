import LibVmi.Artifact.Bundle
import LibVmi.Artifact.Fields

namespace LibVmi.Artifact

open Data

/-! LiME artifacts: headed ranges with inclusive ends, one after the other. -/

def limeMagic : UInt32 := 0x4c694d45

/-- The range at the cursor, and where the next one starts. -/
def limeRangeAt (data : Buffer) (cursor : Nat) :
    Result (SnapshotSegment × Nat) := do
  let headerEnd ← okOr (Usize.checkedAdd cursor 32)
    (.backend "LiME header offset overflow")
  rejectIf (data.length < headerEnd) (.backend "truncated LiME range header")
  let magic ← readU32 data cursor
  rejectIf (magic ≠ limeMagic)
    (.backend s!"invalid LiME magic at offset {cursor}")
  let version ← readU32 data (← addOffset cursor 4)
  rejectIf (version ≠ 1) (.backend s!"unsupported LiME version {version}")
  let start ← readU64 data (← addOffset cursor 8)
  let stop ← readU64 data (← addOffset cursor 16)
  let length ← okOr ((checkedSub stop start).bind (checkedAdd · 1))
    (.backend ("invalid LiME range " ++ hex start.toNat ++ "..=" ++
      hex stop.toNat))
  let dataEnd ← okOr (Usize.checkedAdd headerEnd length.toNat)
    (.backend "LiME range offset overflow")
  let bytes ← okOr (data.get headerEnd dataEnd)
    (.backend "LiME range extends beyond artifact")
  return (.new ⟨start⟩ bytes, dataEnd)

/-- A record of the format: eight bytes of its header are not looked at. -/
structure LimeRecord where
  start : UInt64
  stop : UInt64
  reserved : List UInt8
  payload : Buffer
  ordered : start.toNat ≤ stop.toNat
  fits : stop.toNat - start.toNat + 1 < 2 ^ 64
  reserved_length : reserved.length = 8
  payload_length : payload.length = stop.toNat - start.toNat + 1

namespace LimeRecord

def encode (record : LimeRecord) : List UInt8 :=
  toLe 4 limeMagic.toNat ++ (toLe 4 1 ++ (toLe 8 record.start.toNat ++
    (toLe 8 record.stop.toNat ++ (record.reserved ++ record.payload.bytes))))

def segment (record : LimeRecord) : SnapshotSegment :=
  .new ⟨record.start⟩ record.payload

def Disjoint (left right : LimeRecord) : Prop :=
  left.stop.toNat < right.start.toNat ∨ right.stop.toNat < left.start.toNat

theorem encode_length (record : LimeRecord) :
    record.encode.length = 32 + record.payload.length := by
  simp only [encode, List.length_append, toLe_length, record.reserved_length]
  change _ = 32 + record.payload.bytes.length
  omega

end LimeRecord

/-- What one iteration checks, field by field. -/
private theorem limeRangeAt_fields {data : Buffer} {cursor next : Nat}
    {segment : SnapshotSegment} :
    limeRangeAt data cursor = .ok (segment, next) ↔
      cursor + 32 ≤ data.length ∧
      slice data.bytes cursor (cursor + 4) = some (toLe 4 limeMagic.toNat) ∧
      slice data.bytes (cursor + 4) (cursor + 8) = some (toLe 4 1) ∧
      ∃ start : UInt64,
        slice data.bytes (cursor + 8) (cursor + 16) =
          some (toLe 8 start.toNat) ∧
        ∃ stop : UInt64,
          slice data.bytes (cursor + 16) (cursor + 24) =
            some (toLe 8 stop.toNat) ∧
          ∃ payload : Buffer,
            slice data.bytes (cursor + 32) next = some payload.bytes ∧
            start.toNat ≤ stop.toNat ∧
            payload.length = stop.toNat - start.toNat + 1 ∧
            segment = .new ⟨start⟩ payload := by
  have whole := data.length_lt_limit
  simp only [limeRangeAt, bind_eq_ok, okOr_eq_ok, rejectIf_eq_ok,
    addOffset_eq_ok, readU32_eq_ok, readU64_eq_ok, Buffer.get_eq_some,
    Usize.checkedAdd_eq_some, Option.bind_eq_some_iff, checkedSub_eq_some,
    checkedAdd_eq_some, unsigned_toNat_uint64, pure_eq_ok, Except.ok.injEq,
    Prod.mk.injEq, exists_and_left, exists_const, not_not, and_assoc,
    exists_eq_left]
  constructor
  · intro given
    obtain ⟨_, within, _, magic, rfl, _, _, version, rfl, _, start, startRead,
      _, stop, stopRead, length, ⟨span, spanEq, lengthEq⟩, _, payload, taken,
      rfl, rfl⟩ := given
    have payloadLength := slice_length taken
    refine ⟨by omega, magic, version, start, startRead, stop, stopRead,
      payload, taken, by omega, ?_, rfl⟩
    change payload.bytes.length = _
    have one : UInt64.toNat 1 = 1 := rfl
    omega
  · intro given
    obtain ⟨within, magic, version, start, startRead, stop, stopRead, payload,
      taken, ordered, payloadLength, rfl⟩ := given
    have bounds := slice_length taken
    change cursor + 32 + payload.length = _ ∧ _ at bounds
    change _ ∧ next ≤ data.length at bounds
    have lengthBound := payload.length_lt_limit
    obtain ⟨span, spanEq⟩ : ∃ span : UInt64,
        span.toNat = stop.toNat - start.toNat :=
      ⟨UInt64.ofNat (stop.toNat - start.toNat), by
        apply UInt64.toNat_ofNat_of_lt'
        have := stop.toNat_lt
        unfold UInt64.size
        omega⟩
    refine ⟨by omega, by omega, limeMagic, magic, rfl, by omega, 1, version,
      rfl, by omega, start, startRead, by omega, stop, stopRead,
      UInt64.ofNat payload.length, ⟨span, by omega, ?_⟩, ?_⟩
    · rw [UInt64.toNat_ofNat_of_lt' lengthBound]
      have one : UInt64.toNat 1 = 1 := rfl
      omega
    · rw [UInt64.toNat_ofNat_of_lt' lengthBound]
      exact ⟨by omega, payload, bounds.1 ▸ taken, rfl, bounds.1⟩

/-- One iteration accepts exactly a record at the cursor. -/
theorem limeRangeAt_eq_ok {data : Buffer} {cursor next : Nat}
    {segment : SnapshotSegment} :
    limeRangeAt data cursor = .ok (segment, next) ↔
      ∃ record : LimeRecord, segment = record.segment ∧
        slice data.bytes cursor next = some record.encode := by
  rw [limeRangeAt_fields]
  constructor
  · intro given
    obtain ⟨within, magic, version, start, startRead, stop, stopRead, payload,
      taken, ordered, payloadLength, rfl⟩ := given
    obtain ⟨reserved, reservedRead⟩ : ∃ part,
        slice data.bytes (cursor + 24) (cursor + 32) = some part :=
      slice_exists (by omega) within
    have reservedLength := slice_length reservedRead
    refine ⟨⟨start, stop, reserved, payload, ordered, ?_, by omega,
      payloadLength⟩, rfl, ?_⟩
    · rw [← payloadLength]
      exact payload.length_lt_limit
    · simp only [LimeRecord.encode, slice_eq_append, toLe_length,
        show reserved.length = 8 by omega]
      exact ⟨magic, version, startRead, stopRead, reservedRead, taken⟩
  · intro given
    obtain ⟨record, rfl, found⟩ := given
    have length := slice_length found
    rw [record.encode_length] at length
    simp only [LimeRecord.encode, slice_eq_append, toLe_length,
      record.reserved_length] at found
    obtain ⟨magic, version, startRead, stopRead, -, taken⟩ := found
    refine ⟨?_, magic, version, record.start, startRead, record.stop, stopRead,
      record.payload, taken, record.ordered, record.payload_length, rfl⟩
    change cursor + 32 ≤ data.bytes.length
    omega

theorem limeRangeAt_progress {data : Buffer} {cursor next : Nat}
    {segment : SnapshotSegment}
    (parsed : limeRangeAt data cursor = .ok (segment, next)) :
    cursor < next ∧ next ≤ data.length := by
  obtain ⟨record, _, found⟩ := limeRangeAt_eq_ok.mp parsed
  have length := slice_length found
  rw [record.encode_length] at length
  exact ⟨by omega, length.2⟩

/-- The cursor loop. -/
def limeRanges (data : Buffer) (cursor : Nat) :
    Result (List SnapshotSegment) :=
  if cursor < data.length then
    match parsed : limeRangeAt data cursor with
    | .error error => .error error
    | .ok (segment, next) =>
        have := limeRangeAt_progress parsed
        do
          let rest ← limeRanges data next
          return segment :: rest
  else
    .ok []
termination_by data.length - cursor

def fromLime (source : String) (data : Buffer) : Result SnapshotBundle := do
  let segments ← limeRanges data 0
  rejectIf (segments = []) (.backend "LiME artifact contains no ranges")
  let segments ← arrange "LiME physical ranges overlap" segments
  return ⟨⟨"lime", source⟩, segments⟩

private theorem limeRanges_step {data : Buffer} {cursor : Nat}
    {segments : List SnapshotSegment} (unfinished : cursor < data.length) :
    limeRanges data cursor = .ok segments ↔
      ∃ segment next rest, limeRangeAt data cursor = .ok (segment, next) ∧
        limeRanges data next = .ok rest ∧ segments = segment :: rest := by
  rw [limeRanges, if_pos unfinished]
  split
  · rename_i failed
    simp [failed]
  · rename_i segment next parsed
    simp only [parsed, bind_eq_ok, pure_eq_ok, Except.ok.injEq, Prod.mk.injEq]
    constructor
    · intro given
      obtain ⟨rest, parsedRest, rfl⟩ := given
      exact ⟨segment, next, rest, ⟨rfl, rfl⟩, parsedRest, rfl⟩
    · intro given
      obtain ⟨_, _, rest, ⟨rfl, rfl⟩, parsedRest, rfl⟩ := given
      exact ⟨rest, parsedRest, rfl⟩

/-- From any cursor the loop accepts exactly a concatenation of records. -/
theorem limeRanges_eq_ok {data : Buffer} {cursor : Nat}
    {segments : List SnapshotSegment} (within : cursor ≤ data.length) :
    limeRanges data cursor = .ok segments ↔
      ∃ records : List LimeRecord,
        segments = records.map LimeRecord.segment ∧
        slice data.bytes cursor data.length =
          some (records.flatMap LimeRecord.encode) := by
  induction distance : data.length - cursor using Nat.strong_induction_on
    generalizing cursor segments with
  | _ distance induction =>
      subst distance
      by_cases unfinished : cursor < data.length
      · rw [limeRanges_step unfinished]
        constructor
        · intro given
          obtain ⟨segment, next, rest, parsed, parsedRest, rfl⟩ := given
          have progress := limeRangeAt_progress parsed
          obtain ⟨records, rfl, remaining⟩ :=
            (induction _ (by omega) progress.2 rfl).mp parsedRest
          obtain ⟨record, rfl, found⟩ := limeRangeAt_eq_ok.mp parsed
          have length := slice_length found
          refine ⟨record :: records, rfl, ?_⟩
          rw [List.flatMap_cons, slice_eq_append, length.1]
          exact ⟨found, remaining⟩
        · intro given
          obtain ⟨records, rfl, found⟩ := given
          cases records with
          | nil =>
              have length := slice_length found
              simp only [List.flatMap_nil, List.length_nil] at length
              omega
          | cons record records =>
              rw [List.flatMap_cons, slice_eq_append] at found
              have parsed := limeRangeAt_eq_ok.mpr ⟨record, rfl, found.1⟩
              have progress := limeRangeAt_progress parsed
              exact ⟨record.segment, _, records.map LimeRecord.segment, parsed,
                (induction _ (by omega) progress.2 rfl).mpr
                  ⟨records, rfl, found.2⟩, rfl⟩
      · have finished : cursor = data.length := by omega
        subst finished
        rw [limeRanges, if_neg unfinished]
        constructor
        · intro given
          obtain ⟨⟩ := given
          refine ⟨[], rfl, ?_⟩
          exact slice_eq_some.mpr ⟨data.bytes, [], by simp, rfl, rfl⟩
        · intro given
          obtain ⟨records, rfl, found⟩ := given
          cases records with
          | nil => rfl
          | cons record records =>
              have length := slice_length found
              rw [List.flatMap_cons, List.length_append,
                record.encode_length] at length
              omega

theorem LimeRecord.segment_upper (record : LimeRecord) :
    record.segment.upper = record.stop.toNat + 1 := by
  have ordered := record.ordered
  rw [LimeRecord.segment, SnapshotSegment.new_upper, record.payload_length]
  simp only
  omega

theorem LimeRecord.apart_iff_disjoint {left right : LimeRecord} :
    Apart left.segment right.segment ↔ left.Disjoint right := by
  simp only [Apart, Intervals.Apart, Intervals.Before, segment_upper]
  exact Iff.rfl

theorem LimeRecord.segments_nonempty (records : List LimeRecord) :
    ∀ segment ∈ records.map LimeRecord.segment, 0 < segment.data.length := by
  intro segment member
  obtain ⟨record, _, rfl⟩ := List.mem_map.mp member
  rw [LimeRecord.segment, SnapshotSegment.new_data, record.payload_length]
  omega

theorem fromLime_eq_ok {source : String} {data : Buffer}
    {bundle : SnapshotBundle} :
    fromLime source data = .ok bundle ↔
      ∃ records : List LimeRecord, records ≠ [] ∧
        data.bytes = records.flatMap LimeRecord.encode ∧
        records.Pairwise LimeRecord.Disjoint ∧
        bundle = ⟨⟨"lime", source⟩,
          sortByStart (records.map LimeRecord.segment)⟩ := by
  simp only [fromLime, bind_eq_ok, rejectIf_eq_ok, pure_eq_ok,
    Except.ok.injEq, limeRanges_eq_ok (Nat.zero_le _), exists_and_left,
    exists_const]
  have whole (records : List LimeRecord) :
      slice data.bytes 0 data.length =
          some (records.flatMap LimeRecord.encode) ↔
        data.bytes = records.flatMap LimeRecord.encode := by
    simp [slice, Buffer.length]
  have disjoint (records : List LimeRecord) :
      (records.map LimeRecord.segment).Pairwise Apart ↔
        records.Pairwise LimeRecord.Disjoint := by
    rw [List.pairwise_map]
    exact List.Pairwise.iff fun _ _ => LimeRecord.apart_iff_disjoint
  constructor
  · intro given
    obtain ⟨_, ⟨records, rfl, found⟩, nonempty, sorted, arranged, rfl⟩ := given
    refine ⟨records, by simpa using nonempty, (whole records).mp found,
      (disjoint records).mp
        (apart_of_arrange arranged (LimeRecord.segments_nonempty records)), ?_⟩
    rw [(arrange_eq_ok.mp arranged).1]
  · intro given
    obtain ⟨records, nonempty, found, apart, rfl⟩ := given
    exact ⟨_, ⟨records, rfl, (whole records).mpr found⟩, by simpa using nonempty,
      _, arrange_of_apart _ ((disjoint records).mpr apart), rfl⟩

/-- The fixture writer of the tests, with the end in machine arithmetic: a
range may reach up to the last address. -/
def appendLimeRange (output : List UInt8) (start : UInt64)
    (bytes : List UInt8) : List UInt8 :=
  output ++ toLe 4 limeMagic.toNat ++ toLe 4 1 ++ toLe 8 start.toNat ++
    toLe 8 (start + UInt64.ofNat bytes.length - 1).toNat ++ toLe 8 0 ++ bytes

/-- An artifact with one record a segment. -/
def limeImage (segments : List SnapshotSegment) : List UInt8 :=
  segments.foldl (fun output segment =>
    appendLimeRange output segment.range.start.raw segment.data.bytes) []

private theorem appendLimeRange_record {segment : SnapshotSegment}
    (nonempty : 0 < segment.data.length) (fits : segment.upper ≤ 2 ^ 64) :
    ∃ record : LimeRecord, record.segment = segment ∧
      ∀ output, appendLimeRange output segment.range.start.raw
        segment.data.bytes = output ++ record.encode := by
  let stop := segment.range.start.raw + UInt64.ofNat segment.data.length - 1
  have upperEq := segment.upper_eq
  have lengthBound := segment.data.length_lt_limit
  have stopEq : stop.toNat = segment.lower + segment.data.length - 1 := by
    have one : UInt64.toNat 1 = 1 := rfl
    have lengthEq :=
      UInt64.toNat_ofNat_of_lt' (n := segment.data.length) lengthBound
    have startEq : segment.range.start.raw.toNat = segment.lower := rfl
    simp only [stop, UInt64.toNat_sub, UInt64.toNat_add, one, lengthEq,
      startEq]
    omega
  have startEq : segment.range.start.raw.toNat = segment.lower := rfl
  refine ⟨⟨segment.range.start.raw, stop, toLe 8 0, segment.data, by omega, ?_,
    by simp, by omega⟩, segment.new_self, ?_⟩
  · have := segment.data.length_lt_limit
    unfold Usize.limit at this
    omega
  · intro output
    simp [appendLimeRange, LimeRecord.encode, stop, Buffer.length]

private theorem limeImage_records {segments : List SnapshotSegment}
    (nonempty : ∀ segment ∈ segments, 0 < segment.data.length)
    (fits : ∀ segment ∈ segments, segment.upper ≤ 2 ^ 64) :
    ∃ records : List LimeRecord,
      records.map LimeRecord.segment = segments ∧
        limeImage segments = records.flatMap LimeRecord.encode := by
  suffices general : ∀ output, ∃ records : List LimeRecord,
      records.map LimeRecord.segment = segments ∧
        segments.foldl (fun output segment => appendLimeRange output
            segment.range.start.raw segment.data.bytes) output =
          output ++ records.flatMap LimeRecord.encode by
    simpa [limeImage] using general []
  induction segments with
  | nil => exact fun output => ⟨[], rfl, by simp⟩
  | cons segment rest induction =>
      intro output
      simp only [List.mem_cons, forall_eq_or_imp] at nonempty fits
      obtain ⟨record, segmentEq, appended⟩ :=
        appendLimeRange_record nonempty.1 fits.1
      obtain ⟨records, restEq, encoded⟩ := induction nonempty.2 fits.2
        (output ++ record.encode)
      refine ⟨record :: records, by rw [List.map_cons, segmentEq, restEq], ?_⟩
      rw [List.foldl_cons, appended, encoded, List.flatMap_cons,
        List.append_assoc]

/-- Decoding undoes the fixture writer. -/
theorem fromLime_limeImage (source : String) {segments : List SnapshotSegment}
    (present : segments ≠ [])
    (nonempty : ∀ segment ∈ segments, 0 < segment.data.length)
    (fits : ∀ segment ∈ segments, segment.upper ≤ 2 ^ 64)
    (apart : segments.Pairwise Apart) {data : Buffer}
    (encoded : data.bytes = limeImage segments) :
    fromLime source data =
      .ok ⟨⟨"lime", source⟩, sortByStart segments⟩ := by
  obtain ⟨records, rfl, image⟩ := limeImage_records nonempty fits
  refine fromLime_eq_ok.mpr ⟨records, by simpa using present,
    encoded.trans image, ?_, rfl⟩
  rw [List.pairwise_map] at apart
  exact apart.imp LimeRecord.apart_iff_disjoint.mp

/-- The loader accepts exactly its format, undoes the fixture writer, and its
cursor moves forward on every iteration. -/
theorem lime_exact (source : String) :
    (∀ data bundle, fromLime source data = .ok bundle ↔
      ∃ records : List LimeRecord, records ≠ [] ∧
        data.bytes = records.flatMap LimeRecord.encode ∧
        records.Pairwise LimeRecord.Disjoint ∧
        bundle.provenance = ⟨"lime", source⟩ ∧
        bundle.segments.Perm (records.map LimeRecord.segment) ∧
        SortedByStart bundle.segments) ∧
      (∀ segments : List SnapshotSegment, segments ≠ [] →
        (∀ segment ∈ segments,
          0 < segment.data.length ∧ segment.upper ≤ 2 ^ 64) →
        segments.Pairwise Apart →
        ∀ data : Buffer, data.bytes = limeImage segments →
          ∃ bundle, fromLime source data = .ok bundle ∧
            bundle.segments.Perm segments ∧ SortedByStart bundle.segments) ∧
      ∀ data cursor segment next,
        limeRangeAt data cursor = .ok (segment, next) →
          cursor < next ∧ next ≤ data.length := by
  refine ⟨?_, ?_, fun _ _ _ _ => limeRangeAt_progress⟩
  · intro data bundle
    rw [fromLime_eq_ok]
    constructor
    · intro given
      obtain ⟨records, present, found, disjoint, rfl⟩ := given
      exact ⟨records, present, found, disjoint, rfl, sortByStart_perm _,
        sortByStart_sorted _⟩
    · intro given
      obtain ⟨records, present, found, disjoint, provenance, permuted, sorted⟩
        := given
      refine ⟨records, present, found, disjoint, ?_⟩
      have apart : (records.map LimeRecord.segment).Pairwise Apart := by
        rw [List.pairwise_map]
        exact disjoint.imp LimeRecord.apart_iff_disjoint.mpr
      have unique := sortByStart_unique apart
        (LimeRecord.segments_nonempty records) permuted sorted
      cases bundle
      simp_all
  · intro segments present bounds apart data encoded
    exact ⟨_, fromLime_limeImage source present
      (fun segment member => (bounds segment member).1)
      (fun segment member => (bounds segment member).2) apart encoded,
      sortByStart_perm segments, sortByStart_sorted segments⟩

theorem lime_exact_two_ranges :
    let segments : List SnapshotSegment :=
      [.new ⟨0x3000⟩ ⟨[5, 6], by decide⟩, .new ⟨0x1000⟩ ⟨[1, 2, 3, 4], by decide⟩]
    ∃ data bundle, data.bytes = limeImage segments ∧
      fromLime "fixture.lime" data = .ok bundle ∧
      bundle.segments.Perm segments ∧ SortedByStart bundle.segments := by
  intro segments
  have apart : segments.Pairwise Apart := by
    refine List.pairwise_pair.mpr (.inr ?_)
    change 0x1000 + 4 ≤ 0x3000
    omega
  obtain ⟨bundle, decoded, permuted, sorted⟩ :=
    (lime_exact "fixture.lime").2.1 segments (by simp [segments])
      (by decide) apart ⟨limeImage segments, by decide⟩ rfl
  exact ⟨_, bundle, rfl, decoded, permuted, sorted⟩

end LibVmi.Artifact
