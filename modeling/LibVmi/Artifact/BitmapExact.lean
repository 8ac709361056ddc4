import LibVmi.Artifact.Kdmp
import Mathlib.Data.Nat.Bitwise

namespace LibVmi.Artifact

open Data

/-! A bitmap dump as the format reads it: the counts, the bit of every page,
and the pages present in the order of their numbers. -/

namespace BitmapDump

def firstPage (data : Buffer) : Nat := fieldAt data 0x2020 8

def present (data : Buffer) : Nat := fieldAt data 0x2028 8

def pages (data : Buffer) : Nat := fieldAt data 0x2030 8

def bitmapEnd (data : Buffer) : Nat := 0x2038 + (pages data + 7) / 8

def Listed (data : Buffer) (pfn : Nat) : Prop :=
  (data.bytes[0x2038 + pfn / 8]?.getD 0).toNat.testBit (pfn % 8) = true

instance decidableListed (data : Buffer) (pfn : Nat) :
    Decidable (Listed data pfn) :=
  inferInstanceAs (Decidable (_ = _))

def listedAmong (data : Buffer) (table : List Nat) : List Nat :=
  table.filter (Listed data)

def listedPages (data : Buffer) : List Nat :=
  listedAmong data (List.range (pages data))

/-- The pages in order, each with its address and its bytes after the payload
starts. -/
def pageContents (data : Buffer) (payload : Nat) (listed : List Nat) :
    List (Nat × List UInt8) :=
  listed.mapIdx fun index pfn =>
    (4096 * pfn, (data.bytes.drop (payload + 4096 * index)).take 4096)

structure WellFormed (data : Buffer) : Prop where
  marker : slice data.bytes 0x2004 0x2008 = some (ascii "DUMP")
  nonempty : 0 < pages data
  bitmap : bitmapEnd data ≤ data.length
  after : bitmapEnd data ≤ firstPage data
  counted : present data = (listedPages data).length
  payload : present data = 0 ∨
    firstPage data + present data * 4096 ≤ data.length

/-- Every page present has a physical address. -/
def Addressable (data : Buffer) : Prop :=
  ∀ pfn ∈ listedPages data, pfn < 2 ^ 52

end BitmapDump

def SnapshotSegment.placed (segment : SnapshotSegment) : Nat × List UInt8 :=
  (segment.lower, segment.data.bytes)

open BitmapDump

/-- The source's test of one bit. -/
theorem bit_clear_iff (byte : UInt8) (pfn : Nat) :
    byte &&& (1 <<< UInt8.ofNat (pfn % 8)) = 0 ↔
      ¬ byte.toNat.testBit (pfn % 8) = true := by
  have below := Nat.mod_lt pfn (show 8 > 0 by decide)
  have bitEq : (1 <<< UInt8.ofNat (pfn % 8) : UInt8).toNat = 2 ^ (pfn % 8) := by
    have shiftEq : (UInt8.ofNat (pfn % 8)).toNat = pfn % 8 :=
      UInt8.toNat_ofNat_of_lt' (by simp only [UInt8.size]; omega)
    have power : 2 ^ (pfn % 8) < 2 ^ 8 := Nat.pow_lt_pow_right (by decide) below
    rw [UInt8.toNat_shiftLeft, shiftEq, Nat.mod_eq_of_lt below,
      Nat.shiftLeft_eq, UInt8.toNat_one, Nat.one_mul, Nat.mod_eq_of_lt power]
  rw [← UInt8.toNat_inj, UInt8.toNat_and, bitEq, Nat.and_two_pow,
    UInt8.toNat_zero]
  cases byte.toNat.testBit (pfn % 8) <;> simp

section Pages

variable {data bitmap : Buffer}

/-- The bit of a page is looked up in the bitmap as in the whole dump. -/
theorem bitmap_byte (index : Nat) {stop : Nat}
    (taken : data.get 0x2038 stop = some bitmap)
    (inside : 0x2038 + index < stop) :
    ∃ byte, bitmap.bytes[index]? = some byte ∧
      data.bytes[0x2038 + index]?.getD 0 = byte := by
  have part := Buffer.get_eq_some.mp taken
  have within : index < bitmap.bytes.length := by
    have length := slice_length part
    omega
  refine ⟨bitmap.bytes[index], List.getElem?_eq_getElem within, ?_⟩
  rw [slice_getElem? part within, List.getElem?_eq_getElem within,
    Option.getD_some]

theorem listedAmong_cons_listed {pfn : Nat} (listed : Listed data pfn)
    (rest : List Nat) :
    listedAmong data (pfn :: rest) = pfn :: listedAmong data rest :=
  List.filter_cons_of_pos (by simpa using listed)

theorem listedAmong_cons_absent {pfn : Nat} (absent : ¬ Listed data pfn)
    (rest : List Nat) :
    listedAmong data (pfn :: rest) = listedAmong data rest :=
  List.filter_cons_of_neg (by simpa using absent)

theorem pageContents_cons (payload pfn : Nat) (rest : List Nat) :
    pageContents data payload (pfn :: rest) =
      (4096 * pfn, (data.bytes.drop payload).take 4096) ::
        pageContents data (payload + 4096) rest := by
  have shifted (index : Nat) :
      payload + 4096 * (index + 1) = payload + 4096 + 4096 * index := by
    omega
  simp only [pageContents, List.mapIdx_cons, Nat.mul_zero, Nat.add_zero,
    shifted]

/-- The segment of a page that is present. -/
theorem page_segment_iff {pfn payload : Nat} (bound : pfn < 2 ^ 64)
    (segment : SnapshotSegment) :
    (∃ bytes gpa, slice data.bytes payload (payload + 4096) =
        some bytes.bytes ∧ checkedMul (UInt64.ofNat pfn) 4096 = some gpa ∧
        segment = .new ⟨gpa⟩ bytes) ↔
      pfn < 2 ^ 52 ∧ payload + 4096 ≤ data.length ∧
        segment.placed =
          (4096 * pfn, (data.bytes.drop payload).take 4096) := by
  have page : (4096 : UInt64).toNat = 4096 := rfl
  have pfnEq : (UInt64.ofNat pfn).toNat = pfn := UInt64.toNat_ofNat_of_lt' bound
  simp only [checkedMul_eq_some, unsigned_toNat_uint64, page, pfnEq]
  constructor
  · intro given
    obtain ⟨bytes, gpa, taken, gpaEq, rfl⟩ := given
    have gpaBound := gpa.toNat_lt
    have within := (slice_length taken).2
    refine ⟨by omega, within, ?_⟩
    unfold slice at taken
    rw [if_pos ⟨Nat.le_add_right _ _, within⟩, Option.some.injEq,
      Nat.add_sub_cancel_left] at taken
    rw [SnapshotSegment.placed, SnapshotSegment.new_lower,
      SnapshotSegment.new_data, taken, gpaEq, Nat.mul_comm]
  · intro given
    obtain ⟨small, within, placed⟩ := given
    have lowerEq := congrArg Prod.fst placed
    have bytesEq := congrArg Prod.snd placed
    simp only [SnapshotSegment.placed] at lowerEq bytesEq
    refine ⟨segment.data, segment.range.start.raw, ?_, ?_,
      segment.new_self.symm⟩
    · unfold slice
      rw [if_pos ⟨Nat.le_add_right _ _, within⟩, Nat.add_sub_cancel_left,
        bytesEq]
    · rw [Nat.mul_comm]
      exact lowerEq

/-- The scan goes on past a page that is not listed. -/
theorem bitmapPages_absent {stop : Nat}
    (taken : data.get 0x2038 stop = some bitmap) {pfn : Nat}
    (inside : 0x2038 + pfn / 8 < stop) (absent : ¬ Listed data pfn)
    (remaining payload : Nat) (found : UInt64) :
    bitmapPages data bitmap (remaining + 1) pfn payload found =
      bitmapPages data bitmap remaining (pfn + 1) payload found := by
  obtain ⟨byte, looked, held⟩ := bitmap_byte (pfn / 8) taken inside
  have bitClear : byte &&& (1 <<< UInt8.ofNat (pfn % 8)) = 0 := by
    rw [bit_clear_iff, ← held]
    exact absent
  rw [bitmapPages, looked, okOr_some, ok_bind, if_pos bitClear]

/-- A page that is listed is the next of the payload. -/
theorem bitmapPages_listed {stop : Nat}
    (taken : data.get 0x2038 stop = some bitmap) {pfn : Nat}
    (inside : 0x2038 + pfn / 8 < stop) (bound : pfn < 2 ^ 64)
    (listed : Listed data pfn) {remaining payload : Nat} {found total : UInt64}
    {segments : List SnapshotSegment} :
    bitmapPages data bitmap (remaining + 1) pfn payload found =
        .ok (segments, total) ↔
      ∃ segment others next, segments = segment :: others ∧
        (pfn < 2 ^ 52 ∧ payload + 4096 ≤ data.length ∧
          segment.placed =
            (4096 * pfn, (data.bytes.drop payload).take 4096)) ∧
        next.toNat = found.toNat + 1 ∧
        bitmapPages data bitmap remaining (pfn + 1) (payload + 4096) next =
          .ok (others, total) := by
  obtain ⟨byte, looked, held⟩ := bitmap_byte (pfn / 8) taken inside
  have bitSet : ¬ byte &&& (1 <<< UInt8.ofNat (pfn % 8)) = 0 := by
    rw [bit_clear_iff, not_not, ← held]
    exact listed
  have one : (1 : UInt64).toNat = 1 := rfl
  rw [bitmapPages, looked, okOr_some, ok_bind, if_neg bitSet]
  simp only [bind_eq_ok, okOr_eq_ok, Usize.checkedAdd_eq_some,
    Buffer.get_eq_some, pure_eq_ok, Except.ok.injEq, Prod.mk.injEq,
    Prod.exists, and_assoc, exists_eq_left, checkedAdd_eq_some,
    unsigned_toNat_uint64, one]
  constructor
  · intro given
    obtain ⟨_, bytes, pageTaken, gpa, placed, next, counted, others, _,
      loaded, rfl, rfl⟩ := given
    obtain ⟨small, within, contents⟩ := (page_segment_iff bound _).mp
      ⟨bytes, gpa, pageTaken, placed, rfl⟩
    exact ⟨_, others, next, rfl, small, within, contents, counted, loaded⟩
  · intro given
    obtain ⟨segment, others, next, rfl, small, within, contents, counted,
      loaded⟩ := given
    obtain ⟨bytes, gpa, pageTaken, placed, rfl⟩ :=
      (page_segment_iff bound segment).mpr ⟨small, within, contents⟩
    have whole := data.length_lt_limit
    exact ⟨by omega, bytes, pageTaken, gpa, placed, next, counted, others,
      total, loaded, rfl, rfl⟩

/-- The scan of the bitmap from one page number on. -/
theorem bitmapPages_iff {stop : Nat}
    (taken : data.get 0x2038 stop = some bitmap) {remaining pfn payload : Nat}
    {found total : UInt64} {segments : List SnapshotSegment}
    (inside : 0x2038 + (pfn + remaining + 7) / 8 ≤ stop)
    (bound : pfn + remaining ≤ 2 ^ 64) :
    bitmapPages data bitmap remaining pfn payload found =
        .ok (segments, total) ↔
      (∀ page ∈ listedAmong data (List.range' pfn remaining),
        page < 2 ^ 52) ∧
      (listedAmong data (List.range' pfn remaining) = [] ∨
        payload + (listedAmong data (List.range' pfn remaining)).length * 4096
          ≤ data.length) ∧
      total.toNat = found.toNat +
        (listedAmong data (List.range' pfn remaining)).length ∧
      segments.map SnapshotSegment.placed =
        pageContents data payload
          (listedAmong data (List.range' pfn remaining)) := by
  induction remaining generalizing pfn payload found segments with
  | zero =>
      simp only [bitmapPages, Except.ok.injEq, Prod.mk.injEq, List.range'_zero,
        listedAmong, List.filter_nil, pageContents, List.mapIdx_nil,
        List.map_eq_nil_iff, List.length_nil, Nat.add_zero,
        List.not_mem_nil, false_imp_iff, implies_true, true_and, true_or,
        UInt64.toNat_inj]
      constructor
      · intro given
        exact ⟨given.2.symm, given.1.symm⟩
      · intro given
        exact ⟨given.2.symm, given.1.symm⟩
  | succ remaining induction =>
      rw [List.range'_succ]
      by_cases listed : Listed data pfn
      · rw [bitmapPages_listed taken (by omega) (by omega) listed,
          listedAmong_cons_listed listed, pageContents_cons]
        have step {next : UInt64} {others : List SnapshotSegment} :=
          @induction (pfn + 1) (payload + 4096) next others (by omega)
            (by omega)
        generalize listedAmong data (List.range' (pfn + 1) remaining) = rest
          at step ⊢
        simp only [List.forall_mem_cons, List.length_cons, reduceCtorEq,
          false_or, List.map_eq_cons_iff]
        constructor
        · intro given
          obtain ⟨segment, others, next, rfl, ⟨small, within, contents⟩,
            counted, loaded⟩ := given
          obtain ⟨smaller, room, totalEq, others⟩ := step.mp loaded
          refine ⟨⟨small, smaller⟩, ?_, by omega, _, _, rfl, contents, others⟩
          cases room with
          | inl none =>
              subst none
              rw [List.length_nil]
              omega
          | inr room => omega
        · intro given
          obtain ⟨⟨small, smaller⟩, room, totalEq, segment, others, rfl,
            contents, otherContents⟩ := given
          have totalBound := total.toNat_lt
          have nextEq : (UInt64.ofNat (found.toNat + 1)).toNat =
              found.toNat + 1 :=
            UInt64.toNat_ofNat_of_lt' (by simp only [UInt64.size]; omega)
          exact ⟨segment, others, _, rfl, ⟨small, by omega, contents⟩, nextEq,
            step.mpr ⟨smaller, .inr (by omega), by omega, otherContents⟩⟩
      · rw [bitmapPages_absent taken (by omega) listed,
          listedAmong_cons_absent listed]
        exact induction (by omega) (by omega)

theorem listedPages_length_le (data : Buffer) :
    (listedPages data).length ≤ pages data := by
  have filtered := List.length_filter_le (fun pfn => decide (Listed data pfn))
    (List.range (pages data))
  rw [List.length_range] at filtered
  exact filtered

theorem header_fields {data : Buffer} {first present count : UInt64}
    (firstRead : readU64 data 0x2020 = .ok first)
    (presentRead : readU64 data 0x2028 = .ok present)
    (countRead : readU64 data 0x2030 = .ok count) :
    firstPage data = first.toNat ∧ BitmapDump.present data = present.toNat ∧
      pages data = count.toNat :=
  ⟨(readU64_eq_field.mp firstRead).2, (readU64_eq_field.mp presentRead).2,
    (readU64_eq_field.mp countRead).2⟩

theorem header_exists {data : Buffer} (within : 0x2038 ≤ data.length) :
    ∃ first present count, readU64 data 0x2020 = .ok first ∧
      readU64 data 0x2028 = .ok present ∧ readU64 data 0x2030 = .ok count := by
  have limit : Usize.limit = 2 ^ 64 := rfl
  obtain ⟨first, firstRead⟩ : ∃ first, readU64 data 0x2020 = .ok first :=
    readU64_of_within (by omega)
  obtain ⟨present, presentRead⟩ :
      ∃ present, readU64 data 0x2028 = .ok present :=
    readU64_of_within (by omega)
  obtain ⟨count, countRead⟩ : ∃ count, readU64 data 0x2030 = .ok count :=
    readU64_of_within (by omega)
  exact ⟨first, present, count, firstRead, presentRead, countRead⟩

theorem bitmap_exists {data : Buffer} (within : bitmapEnd data ≤ data.length) :
    ∃ bitmap, data.get 0x2038 (0x2038 + (pages data + 7) / 8) = some bitmap := by
  obtain ⟨bytes, taken⟩ := slice_exists (Nat.le_add_right _ _) within
  have length := slice_length taken
  have short := data.length_lt
  exact ⟨⟨bytes, by omega⟩, Buffer.get_eq_some.mpr taken⟩

/-- A dump is decoded exactly when it is well formed and its pages have
addresses. -/
theorem fromBitmapKdmp_iff {source : String} {data : Buffer}
    {bundle : SnapshotBundle} :
    fromBitmapKdmp source data = .ok bundle ↔
      WellFormed data ∧ Addressable data ∧
        bundle.provenance = ⟨"windows-kdmp-bitmap", source⟩ ∧
        bundle.segments.map SnapshotSegment.placed =
          pageContents data (firstPage data) (listedPages data) := by
  have few := listedPages_length_le data
  have pagesBound : pages data < 2 ^ 64 := fieldAt_lt data 0x2030 8
  have zero : (0 : UInt64).toNat = 0 := rfl
  simp only [fromBitmapKdmp, bind_eq_ok, okOr_eq_ok, rejectIf_eq_ok,
    Usize.checkedAdd_eq_some, pure_eq_ok, Except.ok.injEq, Prod.exists,
    exists_and_left, exists_const, and_assoc, exists_eq_left, Nat.not_lt,
    not_or, not_not]
  constructor
  · intro given
    obtain ⟨marker, first, firstRead, present, presentRead, count, countRead,
      nonzero, _, _, bitmap, taken, after, segments, found, loaded, counted, rfl⟩
      := given
    obtain ⟨firstEq, presentEq, countEq⟩ :=
      header_fields firstRead presentRead countRead
    rw [← UInt64.toNat_inj, ← countEq] at nonzero
    rw [← countEq, ← firstEq] at loaded
    rw [← countEq] at taken after
    obtain ⟨small, room, totalEq, contents⟩ := (bitmapPages_iff taken
      (by omega) (by omega)).mp loaded
    rw [← List.range_eq_range'] at small room totalEq contents
    rw [counted, zero, Nat.zero_add] at totalEq
    have within := (slice_length (Buffer.get_eq_some.mp taken)).2
    refine ⟨⟨marker, Nat.pos_of_ne_zero nonzero, within, firstEq ▸ after,
      presentEq.trans totalEq, ?_⟩, small, rfl, contents⟩
    rw [presentEq, totalEq]
    cases room with
    | inl none => exact .inl (List.length_eq_zero_iff.mpr none)
    | inr room => exact .inr room
  · intro given
    obtain ⟨formed, small, provenance, contents⟩ := given
    have positive := formed.nonempty
    have inFile := formed.bitmap
    have after := formed.after
    unfold bitmapEnd at inFile after
    have limit : Usize.limit = 2 ^ 64 := rfl
    obtain ⟨first, present, count, firstRead, presentRead, countRead⟩ :=
      header_exists (show 0x2038 ≤ data.length by omega)
    obtain ⟨firstEq, presentEq, countEq⟩ :=
      header_fields firstRead presentRead countRead
    have counted := formed.counted
    have payload := formed.payload
    obtain ⟨bitmap, taken⟩ := bitmap_exists formed.bitmap
    refine ⟨formed.marker, first, firstRead, present, presentRead, count,
      countRead, ?_, by omega, by omega, bitmap, ?_, by omega,
      bundle.segments, present, ?_, rfl, ?_⟩
    · rw [← UInt64.toNat_inj, ← countEq, zero]
      omega
    · rw [← countEq]
      exact taken
    · rw [← countEq, ← firstEq]
      apply (bitmapPages_iff taken (by omega) (by omega)).mpr
      rw [← List.range_eq_range']
      refine ⟨small, ?_, ?_, contents⟩
      · rw [counted] at payload
        exact payload.imp_left List.length_eq_zero_iff.mp
      · rw [zero, Nat.zero_add, ← presentEq]
        exact counted
    · rw [← provenance]

theorem exists_pages {data : Buffer} {listed : List Nat} (payload : Nat)
    (small : ∀ pfn ∈ listed, pfn < 2 ^ 52)
    (room : listed = [] ∨ payload + listed.length * 4096 ≤ data.length) :
    ∃ segments : List SnapshotSegment,
      segments.map SnapshotSegment.placed =
        pageContents data payload listed := by
  induction listed generalizing payload with
  | nil => exact ⟨[], rfl⟩
  | cons pfn rest induction =>
      simp only [List.forall_mem_cons, reduceCtorEq, false_or,
        List.length_cons] at small room
      obtain ⟨segments, contents⟩ :=
        induction (payload + 4096) small.2 (.inr (by omega))
      have gpaEq : (UInt64.ofNat (4096 * pfn)).toNat = 4096 * pfn :=
        UInt64.toNat_ofNat_of_lt' (by simp only [UInt64.size]; omega)
      have page : ((data.bytes.drop payload).take 4096).length < 2 ^ 63 :=
        Nat.lt_of_le_of_lt (List.length_take_le _ _) (by decide)
      refine ⟨.new ⟨UInt64.ofNat (4096 * pfn)⟩ ⟨_, page⟩ :: segments, ?_⟩
      rw [List.map_cons, contents, pageContents_cons, SnapshotSegment.placed,
        SnapshotSegment.new_lower, gpaEq]
      rfl

theorem fromBitmapKdmp_accepts_iff {source : String} {data : Buffer} :
    (∃ bundle, fromBitmapKdmp source data = .ok bundle) ↔
      WellFormed data ∧ Addressable data := by
  constructor
  · intro given
    obtain ⟨bundle, loaded⟩ := given
    obtain ⟨formed, small, _⟩ := fromBitmapKdmp_iff.mp loaded
    exact ⟨formed, small⟩
  · intro given
    obtain ⟨formed, small⟩ := given
    have room := formed.payload
    rw [formed.counted, List.length_eq_zero_iff] at room
    obtain ⟨segments, contents⟩ := exists_pages _ small room
    exact ⟨⟨⟨"windows-kdmp-bitmap", source⟩, segments⟩,
      fromBitmapKdmp_iff.mpr ⟨formed, small, rfl, contents⟩⟩

end Pages

/-! Bits past the last page. -/

/-- The dumps differ at most in the bits of the last bitmap byte that belong to
no page. -/
structure SameButUnused (data other : Buffer) : Prop where
  length : other.bytes.length = data.bytes.length
  elsewhere : ∀ offset,
    (offset = 0x2038 + pages data / 8 → pages data % 8 = 0) →
      other.bytes[offset]? = data.bytes[offset]?
  used : ∀ bit < pages data % 8,
    (other.bytes[0x2038 + pages data / 8]?.getD 0).toNat.testBit bit =
      (data.bytes[0x2038 + pages data / 8]?.getD 0).toNat.testBit bit

section Unused

variable {data other : Buffer}

theorem SameButUnused.take_drop (same : SameButUnused data other)
    {start width : Nat}
    (outside : ∀ offset, start ≤ offset → offset < start + width →
      offset = 0x2038 + pages data / 8 → pages data % 8 = 0) :
    (other.bytes.drop start).take width =
      (data.bytes.drop start).take width := by
  apply List.ext_getElem?
  intro index
  simp only [List.getElem?_take, List.getElem?_drop]
  by_cases within : index < width
  · rw [if_pos within, if_pos within]
    exact same.elsewhere (start + index)
      (outside (start + index) (by omega) (by omega))
  · rw [if_neg within, if_neg within]

theorem SameButUnused.field_eq (same : SameButUnused data other)
    {offset width : Nat} (low : offset + width ≤ 0x2038) :
    fieldAt other offset width = fieldAt data offset width := by
  unfold fieldAt
  rw [same.take_drop]
  intro position _ _ last
  omega

theorem SameButUnused.pages_eq (same : SameButUnused data other) :
    pages other = pages data :=
  same.field_eq (by decide)

theorem SameButUnused.symm (same : SameButUnused data other) :
    SameButUnused other data where
  length := same.length.symm
  elsewhere := by
    rw [same.pages_eq]
    intro offset used
    exact (same.elsewhere offset used).symm
  used := by
    rw [same.pages_eq]
    intro bit below
    exact (same.used bit below).symm

theorem SameButUnused.listed_iff (same : SameButUnused data other) {pfn : Nat}
    (below : pfn < pages data) : Listed other pfn ↔ Listed data pfn := by
  unfold Listed
  by_cases last : pfn / 8 = pages data / 8 ∧ pages data % 8 ≠ 0
  · rw [last.1, same.used (pfn % 8) (by omega)]
  · rw [same.elsewhere (0x2038 + pfn / 8) (by omega)]

theorem SameButUnused.listedPages_eq (same : SameButUnused data other) :
    listedPages other = listedPages data := by
  unfold listedPages listedAmong
  rw [same.pages_eq]
  apply List.filter_congr
  intro pfn member
  rw [decide_eq_decide]
  exact same.listed_iff (List.mem_range.mp member)

theorem SameButUnused.pageContents_eq (same : SameButUnused data other)
    {payload : Nat} (after : bitmapEnd data ≤ payload) (listed : List Nat) :
    pageContents other payload listed = pageContents data payload listed := by
  unfold pageContents
  congr 1
  funext index pfn
  rw [same.take_drop]
  intro offset start _ last
  unfold bitmapEnd at after
  omega

theorem SameButUnused.wellFormed (same : SameButUnused data other)
    (formed : WellFormed data) : WellFormed other := by
  have pagesEq := same.pages_eq
  have firstEq : firstPage other = firstPage data := same.field_eq (by decide)
  have presentEq : present other = present data := same.field_eq (by decide)
  have endEq : bitmapEnd other = bitmapEnd data := by
    rw [bitmapEnd, bitmapEnd, pagesEq]
  have lengthEq : other.length = data.length := same.length
  constructor
  · rw [← formed.marker]
    unfold slice
    rw [same.length, same.take_drop]
    intro offset _ _ last
    omega
  · rw [pagesEq]
    exact formed.nonempty
  · rw [endEq, lengthEq]
    exact formed.bitmap
  · rw [endEq, firstEq]
    exact formed.after
  · rw [presentEq, same.listedPages_eq]
    exact formed.counted
  · rw [presentEq, firstEq, lengthEq]
    exact formed.payload

theorem SameButUnused.decoded (same : SameButUnused data other)
    {source : String} {bundle : SnapshotBundle}
    (loaded : fromBitmapKdmp source data = .ok bundle) :
    fromBitmapKdmp source other = .ok bundle := by
  obtain ⟨formed, small, provenance, contents⟩ := fromBitmapKdmp_iff.mp loaded
  have firstEq : firstPage other = firstPage data := same.field_eq (by decide)
  apply fromBitmapKdmp_iff.mpr
  refine ⟨same.wellFormed formed, ?_, provenance, ?_⟩
  · unfold Addressable
    rw [same.listedPages_eq]
    exact small
  · rw [same.listedPages_eq, firstEq, same.pageContents_eq formed.after]
    exact contents

end Unused

/-- A bitmap dump is accepted exactly when it is well formed and every page in
it has an address; its segments are then its pages, in order, and unused bits
have no say in it. -/
theorem bitmap_decoding_exact (source : String) (data : Buffer) :
    ((∃ bundle, fromBitmapKdmp source data = .ok bundle) ↔
      WellFormed data ∧ Addressable data) ∧
    (∀ bundle, fromBitmapKdmp source data = .ok bundle →
      bundle.segments.map SnapshotSegment.placed =
        pageContents data (firstPage data) (listedPages data)) ∧
    ∀ other, SameButUnused data other → ∀ bundle,
      fromBitmapKdmp source other = .ok bundle ↔
        fromBitmapKdmp source data = .ok bundle := by
  refine ⟨fromBitmapKdmp_accepts_iff, ?_, ?_⟩
  · intro bundle loaded
    exact (fromBitmapKdmp_iff.mp loaded).2.2.2
  · intro other same bundle
    exact ⟨same.symm.decoded, same.decoded⟩

/-! A dump of one page, whose number is far enough up that its address does not
fit in 64 bits. -/

def lonePageImage (empty : Nat) : List UInt8 :=
  List.replicate 0x2000 0 ++ (ascii "SDMP" ++ (ascii "DUMP" ++
    (List.replicate 0x18 0 ++ (toLe 8 (0x2039 + empty) ++ (toLe 8 1 ++
      (toLe 8 (8 * empty + 1) ++ (List.replicate empty 0 ++ ([1] ++
        List.replicate 4096 0))))))))

theorem lonePageImage_length (empty : Nat) :
    (lonePageImage empty).length = 0x3039 + empty := by
  simp only [lonePageImage, List.length_append, List.length_cons,
    List.length_nil, toLe_length, List.length_replicate,
    show (ascii "SDMP").length = 4 by decide,
    show (ascii "DUMP").length = 4 by decide]
  omega

section LonePage

variable {data : Buffer} {empty : Nat}

/-- The fields of such a dump. -/
structure LonePage (data : Buffer) (empty : Nat) : Prop where
  length : data.length = 0x3039 + empty
  signature : slice data.bytes 0x2000 0x2004 = some (ascii "SDMP")
  marker : slice data.bytes 0x2004 0x2008 = some (ascii "DUMP")
  first : firstPage data = 0x2039 + empty
  present : BitmapDump.present data = 1
  pages : BitmapDump.pages data = 8 * empty + 1
  zeros : slice data.bytes 0x2038 (0x2038 + empty) =
    some (List.replicate empty 0)
  last : slice data.bytes (0x2038 + empty) (0x2039 + empty) = some [1]

theorem lonePage_of_image (few : empty < 2 ^ 61)
    (encoded : data.bytes = lonePageImage empty) : LonePage data empty := by
  have length : data.length = 0x3039 + empty := by
    rw [Buffer.length, encoded, lonePageImage_length]
  have whole : slice data.bytes 0 data.length = some (lonePageImage empty) := by
    rw [slice_eq_some]
    exact ⟨[], [], by simp [encoded], rfl, by simp [Buffer.length, encoded]⟩
  simp only [lonePageImage, slice_eq_append, toLe_length,
    List.length_replicate, List.length_cons, List.length_nil,
    show (ascii "SDMP").length = 4 by decide,
    show (ascii "DUMP").length = 4 by decide, Nat.zero_add, Nat.reduceAdd]
    at whole
  obtain ⟨_, signature, marker, _, first, present, pages, zeros, last, _⟩ :=
    whole
  have field {offset value : Nat} (bound : value < 2 ^ 64)
      (held : slice data.bytes offset (offset + 8) = some (toLe 8 value)) :
      fieldAt data offset 8 = value :=
    ((slice_eq_toLe bound).mp held).2
  refine ⟨length, signature, marker, field (by omega) first,
    field (by decide) present, field (by omega) pages, zeros, ?_⟩
  rw [show 0x2039 + empty = 0x2038 + empty + 1 by omega]
  exact last

theorem LonePage.listedPages (lone : LonePage data empty) :
    listedPages data = [8 * empty] := by
  have absent : ∀ pfn ∈ List.range (8 * empty), ¬ Listed data pfn := by
    intro pfn member
    have below := List.mem_range.mp member
    have zero : data.bytes[0x2038 + pfn / 8]? = some 0 := by
      rw [slice_getElem? lone.zeros (by rw [List.length_replicate]; omega),
        List.getElem?_replicate, if_pos (by omega)]
    rw [Listed, zero, Option.getD_some, UInt8.toNat_zero, Nat.zero_testBit]
    exact Bool.false_ne_true
  have listed : Listed data (8 * empty) := by
    have byte : data.bytes[0x2038 + empty + 0]? = some 1 :=
      slice_getElem? lone.last (by decide)
    rw [Listed, show 8 * empty / 8 = empty by omega,
      show 8 * empty % 8 = 0 by omega, ← Nat.add_zero (0x2038 + empty), byte]
    decide
  have none : (List.range (8 * empty)).filter
      (fun pfn => decide (Listed data pfn)) = [] := by
    rw [List.filter_eq_nil_iff]
    intro pfn member
    simpa using absent pfn member
  unfold BitmapDump.listedPages listedAmong
  rw [lone.pages, List.range_succ, List.filter_append, none, List.nil_append,
    List.filter_cons_of_pos (by simpa using listed), List.filter_nil]

theorem LonePage.wellFormed (lone : LonePage data empty) :
    WellFormed data where
  marker := lone.marker
  nonempty := by
    rw [lone.pages]
    exact Nat.succ_pos _
  bitmap := by
    rw [bitmapEnd, lone.pages, lone.length]
    omega
  after := by
    rw [bitmapEnd, lone.pages, lone.first]
    omega
  counted := by
    rw [lone.present, lone.listedPages]
    rfl
  payload := by
    rw [lone.present, lone.first, lone.length]
    omega

end LonePage

theorem farPage_length_lt : (lonePageImage (2 ^ 49)).length < 2 ^ 63 := by
  rw [lonePageImage_length]
  decide

def farPage : Buffer := ⟨lonePageImage (2 ^ 49), farPage_length_lt⟩

/-- The dump of page 2^52 is well formed, and there is no address for it. -/
theorem bitmap_far_page_rejected :
    bitmapSigned farPage ∧ WellFormed farPage ∧
      ¬ ∃ bundle, fromBitmapKdmp "memory.dmp" farPage = .ok bundle := by
  have lone : LonePage farPage (2 ^ 49) := lonePage_of_image (by decide) rfl
  refine ⟨.inl lone.signature, lone.wellFormed, ?_⟩
  rw [fromBitmapKdmp_accepts_iff]
  intro given
  have small := given.2 (8 * 2 ^ 49) (by rw [lone.listedPages]; simp)
  exact absurd small (by decide)

end LibVmi.Artifact
