import LibVmi.Artifact.Bundle
import LibVmi.Data.SparseMemory

namespace LibVmi.Artifact

open Data Intervals

/-! Reading a bundle. A first pass finds out how far the segments cover the
request, and only a covered request is copied into the output. -/

namespace SnapshotBundle

/-- How far the addresses from `covered` on are covered, up to `stop`. -/
def coverage (stop : Nat) : List SnapshotSegment → Nat → Nat
  | [], covered => covered
  | segment :: rest, covered =>
      if covered = stop then covered
      else if covered < segment.lower then covered
      else if covered < segment.upper then
        coverage stop rest (min segment.upper stop)
      else coverage stop rest covered

/-- The bytes one segment gives to a request of `length` bytes of which
`completed` are there, and where they end in the output. -/
def chunkOf (failed : VmiError) (length : Nat) (segment : SnapshotSegment)
    (completed current : Nat) (output : List UInt8) :
    Result (Nat × Buffer) := do
  let offset ← okOr (Usize.checkedSub current segment.lower) failed
  rejectIf (Usize.limit ≤ offset) failed
  let available := min (segment.upper - current) (Usize.limit - 1)
  let remaining ← okOr (Usize.checkedSub length completed) failed
  let chunk := min available remaining
  let outputEnd ← okOr (Usize.checkedAdd completed chunk) failed
  let segmentEnd ← okOr (Usize.checkedAdd offset chunk) failed
  let source ← okOr (segment.data.get offset segmentEnd) failed
  rejectIf (output.length < outputEnd) failed
  return (outputEnd, source)

/-- `copy_from_slice` into the output from `completed` on. -/
def splice (output : List UInt8) (completed : Nat) (source : List UInt8) :
    List UInt8 :=
  output.take completed ++ source ++ output.drop (completed + source.length)

def copySegments (failed : VmiError) (length : Nat) :
    List SnapshotSegment → (completed current : Nat) → List UInt8 →
      List UInt8 × Result (Nat × Nat)
  | [], completed, current, output => (output, .ok (completed, current))
  | segment :: rest, completed, current, output =>
      if completed = length then (output, .ok (completed, current))
      else if current < segment.lower then (output, .ok (completed, current))
      else if segment.upper ≤ current then
        copySegments failed length rest completed current output
      else
        match chunkOf failed length segment completed current output with
        | .error error => (output, .error error)
        | .ok (outputEnd, source) =>
            copySegments failed length rest outputEnd
              (current + source.length)
              (splice output completed source.bytes)

/-- The output buffer that `read_into` leaves behind, and its result. -/
def readInto (self : SnapshotBundle) (address : Gpa) (output : List UInt8) :
    List UInt8 × Result Unit :=
  let failed : VmiError := .readFailed address.raw output.length
  let start := address.raw.toNat
  let stop := start + output.length
  if output.length = 0 then (output, .ok ())
  else if 2 ^ 64 < stop then (output, .error failed)
  else if coverage stop self.segments start ≠ stop then
    (output, .error failed)
  else
    match copySegments failed output.length self.segments 0 start output with
    | (output, .error error) => (output, .error error)
    | (output, .ok (completed, current)) =>
        if completed = output.length ∧ current = stop then (output, .ok ())
        else (output, .error failed)

theorem splice_length {output source : List UInt8} {completed : Nat}
    (within : completed + source.length ≤ output.length) :
    (splice output completed source).length = output.length := by
  simp only [splice, List.length_append, List.length_take, List.length_drop]
  omega

/-- A segment that holds the current address gives all that it has or all that
is asked for. -/
theorem chunkOf_eq_ok (failed : VmiError) {length completed current : Nat}
    {segment : SnapshotSegment} {output : List UInt8}
    (sized : output.length = length) (bounded : length < Usize.limit)
    (unfinished : completed < length) (after : segment.lower ≤ current)
    (before : current < segment.upper) :
    ∃ source : Buffer,
      chunkOf failed length segment completed current output =
        .ok (completed + source.length, source) ∧
      slice segment.data.bytes (current - segment.lower)
        (current - segment.lower + source.length) = some source.bytes ∧
      source.length = min (segment.upper - current) (length - completed) := by
  have upperEq := segment.upper_eq
  have dataBound := segment.data.length_lt_limit
  let offset := current - segment.lower
  let chunk := min (segment.upper - current) (length - completed)
  have clipped : min (min (segment.upper - current) (Usize.limit - 1))
      (length - completed) = chunk := by
    omega
  have within : offset + chunk ≤ segment.data.bytes.length := by
    change offset + chunk ≤ segment.data.length
    omega
  obtain ⟨part, taken⟩ := slice_exists (Nat.le_add_right offset chunk) within
  have partLength := slice_length taken
  let source : Buffer := ⟨part, by
    have whole := segment.data.length_lt
    omega⟩
  have sourceLength : source.length = chunk := by
    change part.length = chunk
    omega
  refine ⟨source, ?_, sourceLength ▸ taken, sourceLength⟩
  unfold chunkOf
  have subtracted : Usize.checkedSub current segment.lower = some offset :=
    Usize.checkedSub_eq_some.mpr (by omega)
  have remaining :
      Usize.checkedSub length completed = some (length - completed) :=
    Usize.checkedSub_eq_some.mpr (by omega)
  have outputEnd :
      Usize.checkedAdd completed chunk = some (completed + chunk) :=
    Usize.checkedAdd_eq_some.mpr ⟨rfl, by omega⟩
  have segmentEnd : Usize.checkedAdd offset chunk = some (offset + chunk) :=
    Usize.checkedAdd_eq_some.mpr ⟨rfl, by
      change _ ≤ segment.data.length at within
      omega⟩
  have got : segment.data.get offset (offset + chunk) = some source :=
    Buffer.get_eq_some.mpr taken
  simp only [subtracted, okOr_some, ok_bind,
    rejectIf_neg (show ¬ Usize.limit ≤ offset by omega), remaining, clipped,
    outputEnd, segmentEnd, got,
    rejectIf_neg (show ¬ output.length < completed + chunk by omega),
    pure_eq_ok, sourceLength]

/-! What a bundle holds. Its segments are the parts of a sparse memory, and
both passes are about reading that memory. -/

def byteAt (segments : List SnapshotSegment) : Nat → Option UInt8 :=
  Sparse.lookup SnapshotSegment.lower (fun segment => segment.data.bytes)
    segments

theorem sparse_upper (segment : SnapshotSegment) :
    Sparse.upper SnapshotSegment.lower (fun segment => segment.data.bytes)
      segment = segment.upper :=
  segment.upper_eq.symm

theorem byteAt_cons_outside (segment : SnapshotSegment)
    {segments : List SnapshotSegment} {address : Nat}
    (outside : address < segment.lower ∨ segment.upper ≤ address) :
    byteAt (segment :: segments) address = byteAt segments address :=
  Sparse.lookup_cons_outside (by rwa [sparse_upper])

theorem byteAt_isSome {segments : List SnapshotSegment} {address : Nat} :
    (byteAt segments address).isSome ↔
      ∃ segment ∈ segments,
        segment.lower ≤ address ∧ address < segment.upper := by
  simp only [byteAt, Sparse.lookup_isSome, sparse_upper]

theorem byteAt_cons_isSome {segment : SnapshotSegment}
    {segments : List SnapshotSegment} {address : Nat}
    (after : segment.lower ≤ address) (before : address < segment.upper) :
    (byteAt (segment :: segments) address).isSome :=
  byteAt_isSome.mpr ⟨segment, List.mem_cons_self, after, before⟩

/-- What the first pass covers is there to be read. -/
theorem read_of_covered {segments : List SnapshotSegment} {stop current : Nat}
    (reached : current ≤ stop)
    (covered : coverage stop segments current = stop) :
    ∀ address, current ≤ address → address < stop →
      (byteAt segments address).isSome := by
  induction segments generalizing current with
  | nil =>
      intro address after before
      simp only [coverage] at covered
      omega
  | cons segment rest induction =>
      intro address after before
      unfold coverage at covered
      rw [if_neg (by omega)] at covered
      by_cases gap : current < segment.lower
      · rw [if_pos gap] at covered
        omega
      · rw [if_neg gap] at covered
        by_cases holds : current < segment.upper
        · rw [if_pos holds] at covered
          by_cases here : address < segment.upper
          · exact byteAt_cons_isSome (by omega) here
          · rw [byteAt_cons_outside segment (.inr (by omega))]
            exact induction (by omega) covered address (by omega) before
        · rw [if_neg holds] at covered
          rw [byteAt_cons_outside segment (.inr (by omega))]
          exact induction reached covered address after before

/-- In a sorted map the first pass stops only at an address that no segment
holds. -/
theorem covered_of_read {segments : List SnapshotSegment}
    (sorted : SortedByStart segments) {stop current : Nat}
    (reached : current ≤ stop)
    (present : ∀ address, current ≤ address → address < stop →
      (byteAt segments address).isSome) :
    coverage stop segments current = stop := by
  induction segments generalizing current with
  | nil =>
      by_contra short
      simp only [coverage] at short
      simpa [byteAt, Sparse.lookup] using
        present current (Nat.le_refl current) (by omega)
  | cons segment rest induction =>
      obtain ⟨first, others⟩ := List.pairwise_cons.mp sorted
      unfold coverage
      by_cases done : current = stop
      · rw [if_pos done, done]
      · obtain ⟨holder, member, after, before⟩ := byteAt_isSome.mp
          (present current (Nat.le_refl current) (by omega))
        have lowest : segment.lower ≤ holder.lower := by
          cases List.mem_cons.mp member with
          | inl same => rw [same]
          | inr inRest => exact first holder inRest
        rw [if_neg done, if_neg (by omega)]
        by_cases holds : current < segment.upper
        · rw [if_pos holds]
          apply induction others (by omega)
          intro address past within
          rw [← byteAt_cons_outside segment (.inr (by omega))]
          exact present address (by omega) within
        · rw [if_neg holds]
          apply induction others reached
          intro address past within
          rw [← byteAt_cons_outside segment (.inr (by omega))]
          exact present address past within

/-- Copying follows the first pass, so a covered request is copied whole. -/
theorem copySegments_of_covered (failed : VmiError) {length stop : Nat}
    {segments : List SnapshotSegment} {completed current : Nat}
    {output values : List UInt8} (sized : output.length = length)
    (bounded : length < Usize.limit) (reached : current ≤ stop)
    (progress : completed + (stop - current) = length)
    (covered : coverage stop segments current = stop)
    (found : Sparse.read (byteAt segments) current (stop - current) =
      some values) :
    copySegments failed length segments completed current output =
      (output.take completed ++ values, .ok (length, stop)) := by
  induction segments generalizing completed current output values with
  | nil =>
      simp only [coverage] at covered
      subst covered
      rw [Nat.sub_self] at found progress
      obtain rfl : [] = values := Option.some.inj found
      rw [copySegments, List.take_of_length_le (by omega), List.append_nil,
        ← progress]
      rfl
  | cons segment rest induction =>
      unfold coverage at covered
      unfold copySegments
      by_cases done : current = stop
      · subst done
        rw [Nat.sub_self] at found progress
        obtain rfl : [] = values := Option.some.inj found
        rw [if_pos (by omega), List.take_of_length_le (by omega),
          List.append_nil, ← progress]
        rfl
      · rw [if_neg done] at covered
        rw [if_neg (by omega)]
        by_cases gap : current < segment.lower
        · rw [if_pos gap] at covered
          omega
        · rw [if_neg gap] at covered ⊢
          by_cases holds : current < segment.upper
          · rw [if_pos holds] at covered
            rw [if_neg (by omega)]
            obtain ⟨source, chunk, taken, sourceLength⟩ := chunkOf_eq_ok failed
              sized bounded (show completed < length by omega)
              (Nat.le_of_not_lt gap) holds
            have currentEq :
                current + source.length = min segment.upper stop := by
              omega
            have counts : stop - current =
                source.length + (stop - min segment.upper stop) := by
              omega
            rw [counts] at found
            obtain ⟨first, later⟩ := Sparse.read_split found
            have firstEq : source.bytes = values.take source.length := by
              have here : Sparse.read (byteAt (segment :: rest)) current
                  source.length = some source.bytes :=
                Sparse.read_cons_within (Nat.le_of_not_lt gap) taken
              exact Option.some.inj (here.symm.trans first)
            have laterEq : Sparse.read (byteAt rest) (min segment.upper stop)
                (stop - min segment.upper stop) =
                  some (values.drop source.length) := by
              rw [← later, currentEq]
              apply Sparse.read_congr
              intro address past within
              exact (byteAt_cons_outside segment (.inr (by omega))).symm
            have sourceBytes : source.bytes.length = source.length := rfl
            rw [chunk]
            simp only [currentEq]
            rw [induction (by rw [splice_length, sized]; omega) (by omega)
              (by omega) covered laterEq, splice, List.append_assoc,
              ← List.append_assoc,
              List.take_left' (by simp [sourceBytes]; omega), firstEq,
              List.append_assoc, List.take_append_drop]
          · rw [if_neg holds] at covered
            rw [if_pos (by omega)]
            apply induction sized reached progress covered
            rw [← found]
            apply Sparse.read_congr
            intro address past within
            exact (byteAt_cons_outside segment (.inr (by omega))).symm

/-- A request that the first pass covers is answered with what the memory
holds. -/
theorem readInto_of_covered {self : SnapshotBundle} {address : Gpa}
    {output : List UInt8} (bounded : output.length < Usize.limit)
    (inside : address.raw.toNat + output.length ≤ 2 ^ 64)
    (covered : coverage (address.raw.toNat + output.length) self.segments
      address.raw.toNat = address.raw.toNat + output.length) :
    ∃ values, Sparse.read (byteAt self.segments) address.raw.toNat
        output.length = some values ∧
      self.readInto address output = (values, .ok ()) := by
  have present : (Sparse.read (byteAt self.segments) address.raw.toNat
      output.length).isSome :=
    Sparse.read_isSome.mpr
      (read_of_covered (Nat.le_add_right _ output.length) covered)
  obtain ⟨values, found⟩ := Option.isSome_iff_exists.mp present
  refine ⟨values, found, ?_⟩
  have valuesLength := Sparse.read_length found
  unfold readInto
  simp only
  by_cases empty : output.length = 0
  · rw [if_pos empty, List.eq_nil_of_length_eq_zero empty,
      List.eq_nil_of_length_eq_zero (valuesLength.trans empty)]
  · rw [if_neg empty, if_neg (by omega), if_neg (not_not.mpr covered),
      copySegments_of_covered (.readFailed address.raw output.length) rfl
        bounded (Nat.le_add_right _ output.length) (by omega) covered
        (by rwa [Nat.add_sub_cancel_left])]
    simp [valuesLength]

/-- Any other request is turned down before a byte is copied. -/
theorem readInto_of_uncovered {self : SnapshotBundle} {address : Gpa}
    {output : List UInt8} (positive : 0 < output.length)
    (uncovered : address.raw.toNat + output.length ≤ 2 ^ 64 →
      coverage (address.raw.toNat + output.length) self.segments
        address.raw.toNat ≠ address.raw.toNat + output.length) :
    self.readInto address output =
      (output, .error (.readFailed address.raw output.length)) := by
  unfold readInto
  simp only
  rw [if_neg (by omega)]
  by_cases outside : 2 ^ 64 < address.raw.toNat + output.length
  · rw [if_pos outside]
  · rw [if_neg outside, if_pos (uncovered (by omega))]

/-- A read succeeds exactly when the first pass covers it. -/
theorem readInto_eq_ok {self : SnapshotBundle} {address : Gpa}
    {output : List UInt8} (positive : 0 < output.length)
    (bounded : output.length < Usize.limit) :
    (self.readInto address output).2 = .ok () ↔
      address.raw.toNat + output.length ≤ 2 ^ 64 ∧
        coverage (address.raw.toNat + output.length) self.segments
          address.raw.toNat = address.raw.toNat + output.length := by
  constructor
  · intro succeeded
    by_contra uncovered
    rw [readInto_of_uncovered positive (not_and.mp uncovered)] at succeeded
    contradiction
  · intro given
    obtain ⟨values, _, read⟩ := readInto_of_covered bounded given.1 given.2
    rw [read]

/-- A read that succeeds has filled the output it was given. -/
theorem readInto_length {self : SnapshotBundle} {address : Gpa}
    {output bytes : List UInt8} {result : Unit}
    (bounded : output.length < Usize.limit)
    (read : self.readInto address output = (bytes, .ok result)) :
    bytes.length = output.length := by
  by_cases positive : 0 < output.length
  · obtain ⟨inside, covered⟩ := (readInto_eq_ok positive bounded).mp
      (by rw [read])
    obtain ⟨values, found, copied⟩ :=
      readInto_of_covered bounded inside covered
    obtain ⟨rfl, _⟩ := Prod.mk.inj (read.symm.trans copied)
    exact Sparse.read_length found
  · unfold readInto at read
    rw [if_pos (by omega)] at read
    rw [(Prod.mk.inj read).1]

/-- The first pass reaches any address that a sorted map holds. -/
theorem coverage_of_mem {segments : List SnapshotSegment}
    (sorted : SortedByStart segments) {address : Nat}
    {segment : SnapshotSegment} (member : segment ∈ segments)
    (after : segment.lower ≤ address) (before : address < segment.upper) :
    coverage (address + 1) segments address = address + 1 := by
  apply covered_of_read sorted (Nat.le_add_right address 1)
  intro point past within
  obtain rfl : point = address := by omega
  exact byteAt_isSome.mpr ⟨segment, member, after, before⟩

/-- The request asks for nothing, or for addresses of the machine that are all
in some segment. -/
def Covers (segments : List SnapshotSegment) (start count : Nat) : Prop :=
  count = 0 ∨ start + count ≤ 2 ^ 64 ∧
    ∀ point, start ≤ point → point < start + count →
      ∃ segment ∈ segments, segment.lower ≤ point ∧ point < segment.upper

theorem readInto_of_covers {self : SnapshotBundle}
    (sorted : SortedByStart self.segments) {address : Gpa}
    {output : List UInt8} (bounded : output.length < Usize.limit)
    (covers : Covers self.segments address.raw.toNat output.length) :
    ∃ values, Sparse.read (byteAt self.segments) address.raw.toNat
        output.length = some values ∧
      self.readInto address output = (values, .ok ()) := by
  cases covers with
  | inl empty =>
      refine ⟨[], by rw [empty, Sparse.read], ?_⟩
      rw [List.eq_nil_of_length_eq_zero empty]
      rfl
  | inr inside =>
      apply readInto_of_covered bounded inside.1
      apply covered_of_read sorted (Nat.le_add_right _ output.length)
      intro point past within
      exact byteAt_isSome.mpr (inside.2 point past within)

theorem readInto_of_not_covers {self : SnapshotBundle} {address : Gpa}
    {output : List UInt8}
    (missing : ¬ Covers self.segments address.raw.toNat output.length) :
    self.readInto address output =
      (output, .error (.readFailed address.raw output.length)) := by
  obtain ⟨nonempty, short⟩ := not_or.mp missing
  apply readInto_of_uncovered (by omega)
  intro inside covered
  apply short ⟨inside, ?_⟩
  intro point past within
  exact byteAt_isSome.mp (read_of_covered (Nat.le_add_right _ output.length)
    covered point past within)

/-- Reading a sorted map whose segments meet nowhere is exact, and leaves the
output alone where it fails. -/
theorem readInto_exact (self : SnapshotBundle)
    (sorted : SortedByStart self.segments)
    (disjoint : self.segments.Pairwise fun left right =>
      ¬ Meet SnapshotSegment.lower SnapshotSegment.upper left right)
    (address : Gpa) (output : Buffer) :
    ((self.readInto address output.bytes).2 = .ok () ↔
      Covers self.segments address.raw.toNat output.length) ∧
    (Covers self.segments address.raw.toNat output.length →
      (self.readInto address output.bytes).1.length = output.length ∧
      ∀ index < output.length, ∀ segment ∈ self.segments,
        segment.lower ≤ address.raw.toNat + index →
        address.raw.toNat + index < segment.upper →
        ∃ byte,
          segment.data.bytes[address.raw.toNat + index - segment.lower]? =
            some byte ∧
          (self.readInto address output.bytes).1[index]? = some byte) ∧
    (¬ Covers self.segments address.raw.toNat output.length →
      self.readInto address output.bytes =
        (output.bytes, .error (.readFailed address.raw output.length))) := by
  refine ⟨⟨?_, ?_⟩, ?_, readInto_of_not_covers⟩
  · intro succeeded
    by_contra missing
    rw [readInto_of_not_covers missing] at succeeded
    contradiction
  · intro covers
    obtain ⟨values, _, read⟩ :=
      readInto_of_covers sorted output.length_lt_limit covers
    rw [read]
  · intro covers
    obtain ⟨values, found, read⟩ :=
      readInto_of_covers sorted output.length_lt_limit covers
    obtain ⟨lengths, all⟩ := Sparse.read_eq_some.mp found
    rw [read]
    refine ⟨lengths, fun index below segment member after before => ?_⟩
    have here : byteAt self.segments (address.raw.toNat + index) =
        segment.data.bytes[address.raw.toNat + index - segment.lower]? := by
      rw [byteAt, Sparse.lookup_of_mem _ member after
        (by rwa [sparse_upper]), Sparse.valueIn, if_pos after]
      simpa only [sparse_upper, funext sparse_upper] using disjoint
    have within : index < values.length := by
      change index < output.bytes.length at below
      omega
    refine ⟨values.get ⟨index, within⟩, ?_, ?_⟩
    · rw [← here, all index below]
      simp
    · simp

/-- Three adjacent segments, one of them empty, up to the end of the address
space. -/
def lastThreeBytes : SnapshotBundle where
  provenance := ⟨"raw", "last"⟩
  segments := [.new ⟨0xfffffffffffffffd⟩ ⟨[1, 2], by decide⟩,
    .new ⟨0xffffffffffffffff⟩ .empty,
    .new ⟨0xffffffffffffffff⟩ ⟨[3], by decide⟩]

theorem lastThreeBytes_covered :
    Covers lastThreeBytes.segments 0xfffffffffffffffd 3 := by
  refine .inr ⟨by decide, fun point past within => ?_⟩
  have points : point = 0xfffffffffffffffd ∨ point = 0xfffffffffffffffe ∨
      point = 0xffffffffffffffff := by
    omega
  rcases points with rfl | rfl | rfl <;> decide

theorem lastThreeBytes_apart :
    lastThreeBytes.segments.Pairwise fun left right =>
      ¬ Meet SnapshotSegment.lower SnapshotSegment.upper left right := by
  have before : lastThreeBytes.segments.Pairwise fun left right =>
      left.upper ≤ right.lower := by
    decide
  refine before.imp ?_
  intro left right ordered given
  obtain ⟨point, inLeft, inRight⟩ := given
  omega

theorem readInto_exact_last_three_bytes :
    ((lastThreeBytes.readInto ⟨0xfffffffffffffffd⟩ [0, 0, 0]).2 = .ok ()) :=
  (readInto_exact lastThreeBytes
    (show lastThreeBytes.segments.Pairwise fun left right =>
      left.lower ≤ right.lower by decide)
    lastThreeBytes_apart ⟨0xfffffffffffffffd⟩
    ⟨[0, 0, 0], by decide⟩).1.mpr lastThreeBytes_covered

end SnapshotBundle

end LibVmi.Artifact
