import LibVmi.Data.Intervals
import LibVmi.Types

namespace LibVmi.Artifact

open Data Intervals

structure ArtifactProvenance where
  format : String
  source : String
  deriving DecidableEq, Repr

/-- A segment is as long as its data says, as `new` makes it. -/
structure SnapshotSegment where
  range : MemoryRange
  data : Buffer
  length_eq : range.length.toNat = data.length
  deriving DecidableEq

namespace SnapshotSegment

def new (start : Gpa) (data : Buffer) : SnapshotSegment where
  range := ⟨start, UInt64.ofNat data.length⟩
  data := data
  length_eq := UInt64.toNat_ofNat_of_lt' data.length_lt_limit

def lower (segment : SnapshotSegment) : Nat := segment.range.start.raw.toNat

def upper (segment : SnapshotSegment) : Nat := segment.range.stop

def bounds (segment : SnapshotSegment) : Nat × Nat :=
  (segment.lower, segment.upper)

theorem upper_eq (segment : SnapshotSegment) :
    segment.upper = segment.lower + segment.data.length := by
  rw [← segment.length_eq]
  rfl

@[simp] theorem new_data (start : Gpa) (data : Buffer) :
    (new start data).data = data := rfl

@[simp] theorem new_lower (start : Gpa) (data : Buffer) :
    (new start data).lower = start.raw.toNat := rfl

@[simp] theorem new_upper (start : Gpa) (data : Buffer) :
    (new start data).upper = start.raw.toNat + data.length :=
  upper_eq (new start data)

theorem new_self (segment : SnapshotSegment) :
    new segment.range.start segment.data = segment := by
  obtain ⟨⟨start, length⟩, data, lengthEq⟩ := segment
  simp only [new, ← lengthEq, UInt64.ofNat_toNat]

end SnapshotSegment

structure SnapshotBundle where
  provenance : ArtifactProvenance
  segments : List SnapshotSegment
  deriving DecidableEq

/-! The order and the overlap test that the loaders share. Sorting is stable,
and only neighbours are compared. -/

def rangesOverlap (left right : MemoryRange) : Bool :=
  left.start.raw.toNat < right.stop && right.start.raw.toNat < left.stop

def sortByStart (segments : List SnapshotSegment) : List SnapshotSegment :=
  segments.mergeSort fun left right => left.lower ≤ right.lower

def rejectOverlap (message : String) : List SnapshotSegment → Result Unit
  | left :: right :: rest => do
      rejectIf (rangesOverlap left.range right.range) (.backend message)
      rejectOverlap message (right :: rest)
  | _ => .ok ()

def arrange (message : String) (segments : List SnapshotSegment) :
    Result (List SnapshotSegment) := do
  let sorted := sortByStart segments
  rejectOverlap message sorted
  return sorted

abbrev NoOverlap (left right : SnapshotSegment) : Prop :=
  ¬ Overlap SnapshotSegment.lower SnapshotSegment.upper left right

theorem rangesOverlap_eq_true {left right : SnapshotSegment} :
    rangesOverlap left.range right.range = true ↔
      Overlap SnapshotSegment.lower SnapshotSegment.upper left right := by
  simp [rangesOverlap, Overlap, SnapshotSegment.lower, SnapshotSegment.upper]

theorem rejectOverlap_eq_ok {message : String}
    {segments : List SnapshotSegment} {result : Unit} :
    rejectOverlap message segments = .ok result ↔
      segments.IsChain NoOverlap := by
  induction segments with
  | nil => simp [rejectOverlap]
  | cons left rest induction =>
      cases rest with
      | nil => simp [rejectOverlap]
      | cons right rest =>
          rw [rejectOverlap, bind_eq_ok, List.isChain_cons_cons, ← induction]
          simp only [rejectIf_eq_ok, rangesOverlap_eq_true, exists_and_left,
            exists_const]

theorem arrange_eq_ok {message : String}
    {segments sorted : List SnapshotSegment} :
    arrange message segments = .ok sorted ↔
      sorted = sortByStart segments ∧ sorted.IsChain NoOverlap := by
  unfold arrange
  rw [bind_eq_ok]
  simp only [rejectOverlap_eq_ok, exists_and_left, pure_eq_ok,
    Except.ok.injEq]
  constructor
  · intro given
    obtain ⟨chain, _, rfl⟩ := given
    exact ⟨rfl, chain⟩
  · intro given
    obtain ⟨rfl, chain⟩ := given
    exact ⟨chain, (), rfl⟩

theorem sortByStart_perm (segments : List SnapshotSegment) :
    (sortByStart segments).Perm segments :=
  List.mergeSort_perm segments _

@[simp] theorem mem_sortByStart {segment : SnapshotSegment}
    {segments : List SnapshotSegment} :
    segment ∈ sortByStart segments ↔ segment ∈ segments :=
  (sortByStart_perm segments).mem_iff

/-- Two segments meet at an address of the machine if they meet at all. -/
theorem meet_iff_contains {left right : SnapshotSegment} :
    Meet SnapshotSegment.lower SnapshotSegment.upper left right ↔
      ∃ address, left.range.contains address = true ∧
        right.range.contains address = true := by
  simp only [MemoryRange.contains, Bool.and_eq_true, decide_eq_true_eq]
  constructor
  · intro given
    obtain ⟨point, ⟨leftLower, leftUpper⟩, rightLower, rightUpper⟩ := given
    simp only [SnapshotSegment.lower, SnapshotSegment.upper] at *
    rcases Nat.le_total left.range.start.raw.toNat
        right.range.start.raw.toNat with order | order
    · exact ⟨right.range.start, by omega, by omega⟩
    · exact ⟨left.range.start, by omega, by omega⟩
  · intro given
    obtain ⟨address, inLeft, inRight⟩ := given
    exact ⟨address.raw.toNat, inLeft, inRight⟩

def SortedByStart (segments : List SnapshotSegment) : Prop :=
  segments.Pairwise fun left right => left.lower ≤ right.lower

theorem sortByStart_sorted (segments : List SnapshotSegment) :
    SortedByStart (sortByStart segments) := by
  have sorted : (sortByStart segments).Pairwise fun left right =>
      decide (left.lower ≤ right.lower) :=
    List.pairwise_mergeSort (by simp; omega) (by simp; omega) segments
  simpa [SortedByStart] using sorted

theorem sortByStart_of_sorted {segments : List SnapshotSegment}
    (sorted : SortedByStart segments) : sortByStart segments = segments :=
  List.mergeSort_of_pairwise (by simpa [SortedByStart] using sorted)

/-- An unambiguous map: every segment ends before the next one starts. -/
def Disjoint (segments : List SnapshotSegment) : Prop :=
  segments.Pairwise (Before SnapshotSegment.lower SnapshotSegment.upper)

abbrev Apart (left right : SnapshotSegment) : Prop :=
  Intervals.Apart SnapshotSegment.lower SnapshotSegment.upper left right

instance : Std.Symm Apart where
  symm _ _ separate := separate.symm

theorem lower_lt_upper {segment : SnapshotSegment}
    (nonempty : 0 < segment.data.length) : segment.lower < segment.upper := by
  rw [segment.upper_eq]
  omega

/-- Where no segment is empty, comparing neighbours makes the map
unambiguous. -/
theorem disjoint_of_arrange {message : String}
    {segments sorted : List SnapshotSegment}
    (arranged : arrange message segments = .ok sorted)
    (nonempty : ∀ segment ∈ segments, 0 < segment.data.length) :
    Disjoint sorted := by
  obtain ⟨rfl, chain⟩ := arrange_eq_ok.mp arranged
  refine pairwise_before ?_ (sortByStart_sorted segments) chain
  intro segment member
  exact lower_lt_upper (nonempty segment (mem_sortByStart.mp member))

/-- Segments that are apart in whatever order are arranged. -/
theorem arrange_of_apart (message : String) {segments : List SnapshotSegment}
    (apart : segments.Pairwise Apart) :
    arrange message segments = .ok (sortByStart segments) :=
  arrange_eq_ok.mpr ⟨rfl, neighbours_of_apart
    (pairwise_apart_of_perm (sortByStart_perm segments).symm apart)⟩

theorem apart_of_arrange {message : String}
    {segments sorted : List SnapshotSegment}
    (arranged : arrange message segments = .ok sorted)
    (nonempty : ∀ segment ∈ segments, 0 < segment.data.length) :
    segments.Pairwise Apart := by
  have disjoint := disjoint_of_arrange arranged nonempty
  obtain ⟨rfl, _⟩ := arrange_eq_ok.mp arranged
  exact pairwise_apart_of_perm (sortByStart_perm segments)
    (apart_of_before disjoint)

/-- Segments that are apart and not empty have one sorted order. -/
theorem sortByStart_unique {segments other : List SnapshotSegment}
    (apart : segments.Pairwise Apart)
    (nonempty : ∀ segment ∈ segments, 0 < segment.data.length)
    (permuted : other.Perm segments) (sorted : SortedByStart other) :
    other = sortByStart segments := by
  have same : ∀ left ∈ segments, ∀ right ∈ segments,
      left.lower = right.lower → left = right := by
    intro left inLeft right inRight starts
    by_contra different
    have separate := apart.forall inLeft inRight different
    have leftBounds := lower_lt_upper (nonempty left inLeft)
    have rightBounds := lower_lt_upper (nonempty right inRight)
    rcases separate with before | before <;>
      simp only [Before] at before <;> omega
  refine List.Perm.eq_of_pairwise ?_ sorted (sortByStart_sorted segments)
    (permuted.trans (sortByStart_perm segments).symm)
  intro left right inLeft inRight leftFirst rightFirst
  exact same left (permuted.subset inLeft) right (mem_sortByStart.mp inRight)
    (by omega)

end LibVmi.Artifact
