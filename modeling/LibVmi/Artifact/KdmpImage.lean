import LibVmi.Artifact.Kdmp

namespace LibVmi.Artifact

open Data

/-! Dumps as the fixtures build them: the run table in the header, and the pages
of all runs from the end of the header on. -/

/-- A run with its pages. -/
structure KdmpRun where
  run : PhysicalRun
  pages : Buffer
  positive : 0 < run.pageCount.toNat
  pages_length : pages.length = run.pageCount.toNat * 4096
  fits : (run.basePage.toNat + run.pageCount.toNat) * 4096 ≤ 2 ^ 64

namespace KdmpRun

def segment (run : KdmpRun) : SnapshotSegment :=
  .new ⟨UInt64.ofNat (run.run.basePage.toNat * 4096)⟩ run.pages

def entry (run : KdmpRun) : List UInt8 :=
  toLe 8 run.run.basePage.toNat ++ toLe 8 run.run.pageCount.toNat

def Disjoint (left right : KdmpRun) : Prop :=
  left.run.basePage.toNat + left.run.pageCount.toNat ≤
      right.run.basePage.toNat ∨
    right.run.basePage.toNat + right.run.pageCount.toNat ≤
      left.run.basePage.toNat

theorem segment_lower (run : KdmpRun) :
    run.segment.lower = run.run.basePage.toNat * 4096 := by
  have fits := run.fits
  have positive := run.positive
  exact UInt64.toNat_ofNat_of_lt' (by
    unfold UInt64.size
    omega)

theorem segment_upper (run : KdmpRun) :
    run.segment.upper =
      (run.run.basePage.toNat + run.run.pageCount.toNat) * 4096 := by
  rw [run.segment.upper_eq, run.segment_lower, segment,
    SnapshotSegment.new_data, run.pages_length, Nat.add_mul]

theorem apart_of_disjoint {left right : KdmpRun}
    (disjoint : left.Disjoint right) : Apart left.segment right.segment := by
  simp only [Apart, Intervals.Apart, Intervals.Before, segment_lower,
    segment_upper]
  exact disjoint.imp (Nat.mul_le_mul_right 4096) (Nat.mul_le_mul_right 4096)

@[simp] theorem entry_length (run : KdmpRun) : run.entry.length = 16 := by
  simp [entry]

end KdmpRun

def pageTotal (runs : List KdmpRun) : Nat :=
  (runs.map fun run => run.run.pageCount.toNat).sum

def pagesOf (runs : List KdmpRun) : List UInt8 :=
  runs.flatMap fun run => run.pages.bytes

def kdmpImage (runs : List KdmpRun) : List UInt8 :=
  ascii "PAGE" ++ (ascii "DU64" ++ (List.replicate 0x28 0 ++
    (toLe 4 0x8664 ++ (List.replicate 0x54 0 ++ (toLe 4 runs.length ++
      (List.replicate 4 0 ++ (toLe 8 (pageTotal runs) ++
        (runs.flatMap KdmpRun.entry ++
          (List.replicate (0x1f68 - 16 * runs.length) 0 ++
            pagesOf runs)))))))))

@[simp] theorem pageTotal_cons (run : KdmpRun) (runs : List KdmpRun) :
    pageTotal (run :: runs) = run.run.pageCount.toNat + pageTotal runs := rfl

@[simp] theorem pagesOf_cons (run : KdmpRun) (runs : List KdmpRun) :
    pagesOf (run :: runs) = run.pages.bytes ++ pagesOf runs := rfl

theorem pagesOf_length (runs : List KdmpRun) :
    (pagesOf runs).length = pageTotal runs * 4096 := by
  induction runs with
  | nil => rfl
  | cons run runs induction =>
      have length := run.pages_length
      change run.pages.bytes.length = _ at length
      rw [pagesOf_cons, pageTotal_cons, List.length_append, induction, length,
        Nat.add_mul]

theorem entries_length (runs : List KdmpRun) :
    (runs.flatMap KdmpRun.entry).length = 16 * runs.length := by
  induction runs with
  | nil => rfl
  | cons run runs induction =>
      rw [List.flatMap_cons, List.length_append, induction,
        KdmpRun.entry_length, List.length_cons]
      omega

theorem totalLength_segments (runs : List KdmpRun) :
    totalLength (runs.map KdmpRun.segment) = pageTotal runs * 4096 := by
  induction runs with
  | nil => rfl
  | cons run runs induction =>
      rw [List.map_cons, totalLength_cons, induction, pageTotal_cons,
        Nat.add_mul, KdmpRun.segment, SnapshotSegment.new_data,
        run.pages_length]

/-- The fields of an image, where the loader looks for them. -/
structure Encodes (data : Buffer) (runs : List KdmpRun) : Prop where
  page : slice data.bytes 0 4 = some (ascii "PAGE")
  du64 : slice data.bytes 4 8 = some (ascii "DU64")
  machine : slice data.bytes 0x30 0x34 = some (toLe 4 0x8664)
  count : slice data.bytes 0x88 0x8c = some (toLe 4 runs.length)
  total : slice data.bytes 0x90 0x98 = some (toLe 8 (pageTotal runs))
  table : slice data.bytes 0x98 (0x98 + 16 * runs.length) =
    some (runs.flatMap KdmpRun.entry)
  payload : slice data.bytes 0x2000 data.length = some (pagesOf runs)

theorem encodes_of_image {data : Buffer} {runs : List KdmpRun}
    (few : runs.length ≤ 502) (encoded : data.bytes = kdmpImage runs) :
    Encodes data runs := by
  have whole : slice data.bytes 0 data.length = some (kdmpImage runs) := by
    rw [← encoded]
    simp [slice, Buffer.length]
  have padded : 0x98 + 16 * runs.length + (0x1f68 - 16 * runs.length) =
      0x2000 := by
    omega
  simp only [kdmpImage, slice_eq_append, toLe_length, List.length_replicate,
    entries_length, show (ascii "PAGE").length = 4 by decide,
    show (ascii "DU64").length = 4 by decide, Nat.reduceAdd, padded] at whole
  obtain ⟨page, du64, _, machine, _, count, _, total, table, _, payload⟩ :=
    whole
  exact ⟨page, du64, machine, count, total, table, payload⟩

/-- The header's runs are read back one by one, each with its own pages. -/
theorem legacyRuns_encoded {data : Buffer} {runs : List KdmpRun}
    {index payload : Nat} {actualPages declaredPages : UInt64}
    (table : slice data.bytes (0x98 + index * 16)
      (0x98 + index * 16 + 16 * runs.length) =
        some (runs.flatMap KdmpRun.entry))
    (pages : slice data.bytes payload data.length = some (pagesOf runs))
    (declared : declaredPages.toNat = actualPages.toNat + pageTotal runs) :
    legacyRuns data runs.length index payload actualPages =
      .ok (runs.map KdmpRun.segment, declaredPages) := by
  induction runs generalizing index payload actualPages with
  | nil =>
      have same : declaredPages = actualPages := by
        rw [← UInt64.toNat_inj, declared]
        rfl
      rw [same]
      rfl
  | cons run runs induction =>
      rw [List.flatMap_cons, slice_eq_append, KdmpRun.entry_length] at table
      rw [pagesOf_cons, slice_eq_append] at pages
      rw [pageTotal_cons] at declared
      have bound := declaredPages.toNat_lt
      obtain ⟨counted, countedEq⟩ : ∃ counted : UInt64,
          counted.toNat = actualPages.toNat + run.run.pageCount.toNat :=
        ⟨_, UInt64.toNat_ofNat_of_lt' (by
          unfold UInt64.size
          omega)⟩
      refine legacyRuns_step.mpr ⟨run.run, readRun_eq_ok.mpr table.1,
        run.positive, counted, countedEq, run.segment, _,
        loadRun_eq_ok.mpr ⟨pages.1, run.pages_length, run.segment_lower⟩,
        runs.map KdmpRun.segment, ?_, rfl⟩
      refine induction ?_ pages.2 (by omega)
      have start : 0x98 + index * 16 + 16 = 0x98 + (index + 1) * 16 := by
        omega
      have stop : 0x98 + index * 16 + 16 * (runs.length + 1) =
          0x98 + (index + 1) * 16 + 16 * runs.length := by
        omega
      rw [List.length_cons, stop, start] at table
      exact table.2

theorem fromRunKdmp_encoded (source : String) {data : Buffer}
    {runs : List KdmpRun} (encodes : Encodes data runs) (present : runs ≠ [])
    (few : runs.length ≤ 502) (disjoint : runs.Pairwise KdmpRun.Disjoint) :
    fromRunKdmp source data =
      .ok ⟨⟨"windows-kdmp", source⟩,
        sortByStart (runs.map KdmpRun.segment)⟩ := by
  have lengthEq : (UInt32.ofNat runs.length).toNat = runs.length :=
    UInt32.toNat_ofNat_of_lt' (by
      unfold UInt32.size
      omega)
  have totalEq : (UInt64.ofNat (pageTotal runs)).toNat = pageTotal runs := by
    apply UInt64.toNat_ofNat_of_lt'
    have length := slice_length encodes.payload
    have whole := data.length_lt_limit
    rw [pagesOf_length] at length
    unfold UInt64.size
    unfold Usize.limit at whole
    omega
  have positive : 0 < runs.length := List.length_pos_iff.mpr present
  refine fromRunKdmp_eq_ok.mpr ⟨readU32_eq_ok.mpr encodes.machine,
    UInt32.ofNat runs.length, readU32_eq_ok.mpr (by
      rw [lengthEq]
      exact encodes.count),
    UInt64.ofNat (pageTotal runs), readU64_eq_ok.mpr (by
      rw [totalEq]
      exact encodes.total), ?_, runs.map KdmpRun.segment, ?_,
    arrange_of_apart _ ?_, rfl⟩
  · rw [← UInt32.toNat_inj, lengthEq]
    rintro (zero | many)
    · have : runs.length = 0 := zero
      omega
    · omega
  · rw [lengthEq]
    apply legacyRuns_encoded encodes.table encodes.payload
    rw [totalEq]
    exact (Nat.zero_add _).symm
  · rw [List.pairwise_map]
    exact disjoint.imp KdmpRun.apart_of_disjoint

/-! Guest pages that the dispatch takes for the header of another layout. -/

def Misread (pages : List UInt8) : Prop :=
  ascii "SDMP" <+: pages ∨ ascii "FDMP" <+: pages ∨
    toLe 4 0x40 ++ ascii "RDMP" <+: pages

theorem pageTotal_positive {runs : List KdmpRun} (present : runs ≠ []) :
    0 < pageTotal runs := by
  cases runs with
  | nil => exact absurd rfl present
  | cons run runs =>
      have positive := run.positive
      rw [pageTotal_cons]
      omega

theorem misread_iff {data : Buffer} {runs : List KdmpRun}
    (encodes : Encodes data runs) :
    Misread (pagesOf runs) ↔ bitmapSigned data ∨ rdmpSigned data := by
  have starts (word : List UInt8) (length : word.length = 4) :
      slice data.bytes 0x2000 0x2004 = some word ↔ word <+: pagesOf runs := by
    rw [← slice_prefix encodes.payload, length]
  have ranges : rdmpSigned data ↔
      toLe 4 0x40 ++ ascii "RDMP" <+: pagesOf runs := by
    rw [← slice_prefix encodes.payload, slice_eq_append, rdmpSigned,
      readU32_eq_ok]
    rfl
  rw [Misread, bitmapSigned, ranges, starts _ (by decide),
    starts _ (by decide), or_assoc]

/-- A dump that is taken for another layout cannot give back all its pages:
that layout's own header lies where they start. -/
theorem not_decoded_of_misread {source : String} {data : Buffer}
    {runs : List KdmpRun} (encodes : Encodes data runs) (present : runs ≠ [])
    (misread : bitmapSigned data ∨ rdmpSigned data) {bundle : SnapshotBundle}
    (decoded : fromKdmp source data = .ok bundle) :
    ¬ bundle.segments.Perm (runs.map KdmpRun.segment) := by
  intro permuted
  have lengthEq : totalLength bundle.segments = pageTotal runs * 4096 := by
    rw [← totalLength_segments]
    exact (permuted.map _).sum_nat
  have payload := slice_length encodes.payload
  rw [pagesOf_length] at payload
  have positive := pageTotal_positive present
  rcases (fromKdmp_eq_ok.mp decoded).2 with ⟨_, loaded⟩ | ⟨_, _, loaded⟩ |
    ⟨notBitmap, notRanges, _⟩
  · obtain ⟨bitmap, pages, first, total, bound, after, taken⟩ :=
      fromBitmapKdmp_segments loaded
    have within := bitmapPages_payload taken (by omega)
    omega
  · obtain ⟨metadataSize, _, segments, taken, arranged⟩ :=
      fromRdmpKdmp_segments loaded
    have within := rdmpRanges_payload taken
    have sorted : totalLength bundle.segments = totalLength segments := by
      rw [(arrange_eq_ok.mp arranged).1]
      exact ((sortByStart_perm segments).map _).sum_nat
    omega
  · exact misread.elim notBitmap notRanges

/-- Decoding undoes the fixture writer exactly when the first guest page does
not look like the header of another layout. -/
theorem kdmp_decodes_iff (source : String) {runs : List KdmpRun}
    (present : runs ≠ []) (few : runs.length ≤ 502)
    (disjoint : runs.Pairwise KdmpRun.Disjoint) {data : Buffer}
    (encoded : data.bytes = kdmpImage runs) :
    (∃ bundle, fromKdmp source data = .ok bundle ∧
        bundle.segments.Perm (runs.map KdmpRun.segment) ∧
        SortedByStart bundle.segments) ↔
      ¬ Misread (pagesOf runs) := by
  have encodes := encodes_of_image few encoded
  rw [misread_iff encodes]
  constructor
  · rintro ⟨bundle, decoded, permuted, _⟩ misread
    exact not_decoded_of_misread encodes present misread decoded permuted
  · intro legible
    have payload := slice_length encodes.payload
    rw [pagesOf_length] at payload
    have positive := pageTotal_positive present
    have headed : ¬ notCrashDump data := by
      have prefixed : ascii "PAGE" <+: data.bytes := by
        rw [encoded]
        exact List.prefix_append _ _
      rintro (short | unprefixed | unmarked)
      · omega
      · exact unprefixed prefixed
      · exact unmarked encodes.du64
    have kindRead : ∃ kind, readU32 data 0x2000 = .ok kind :=
      readU32_of_within (by omega)
    exact ⟨_, fromKdmp_eq_ok.mpr ⟨headed, .inr (.inr
      ⟨fun bitmap => legible (.inl bitmap), fun ranges => legible (.inr ranges),
        kindRead, fromRunKdmp_encoded source encodes present few disjoint⟩)⟩,
      sortByStart_perm _, sortByStart_sorted _⟩

/-- A run of one page. -/
def singlePage (base : UInt64)
    (fits : (base.toNat + (1 : UInt64).toNat) * 4096 ≤ 2 ^ 64)
    (page : Buffer) (length : page.length = (1 : UInt64).toNat * 4096) :
    KdmpRun where
  run := ⟨base, 1⟩
  pages := page
  positive := show 0 < (1 : UInt64).toNat by decide
  pages_length := length
  fits := fits

/-- Guest memory that starts like a bitmap header. -/
def signedPage : KdmpRun :=
  singlePage 1 (by decide)
    ⟨ascii "SDMP" ++ List.replicate 4092 0, by decide +kernel⟩
    (by decide +kernel)

def upperPage : KdmpRun :=
  singlePage 4 (by decide) ⟨List.replicate 4096 0x44, by decide +kernel⟩
    (by decide +kernel)

def lowerPage : KdmpRun :=
  singlePage 2 (by decide) ⟨List.replicate 4096 0x22, by decide +kernel⟩
    (by decide +kernel)

theorem kdmp_signed_page_rejected :
    let data : Buffer := ⟨kdmpImage [signedPage], by decide +kernel⟩
    ¬ ∃ bundle, fromKdmp "memory.dmp" data = .ok bundle ∧
      bundle.segments.Perm ([signedPage].map KdmpRun.segment) ∧
      SortedByStart bundle.segments := by
  rintro data ⟨bundle, decoded, _⟩
  have rejected : fromKdmp "memory.dmp" data =
      .error (.backend "invalid bitmap KDMP marker") := by
    decide +kernel
  rw [rejected] at decoded
  contradiction

theorem kdmp_decodes_two_runs :
    let data : Buffer := ⟨kdmpImage [upperPage, lowerPage], by decide +kernel⟩
    ∃ bundle, fromKdmp "memory.dmp" data = .ok bundle ∧
      bundle.segments.Perm ([upperPage, lowerPage].map KdmpRun.segment) ∧
      SortedByStart bundle.segments := by
  intro data
  refine (kdmp_decodes_iff "memory.dmp" (List.cons_ne_nil _ _) (by decide)
    (List.pairwise_pair.mpr (.inr (by decide))) rfl).mpr ?_
  rintro (start | start | start) <;>
    · revert start
      decide +kernel

end LibVmi.Artifact
