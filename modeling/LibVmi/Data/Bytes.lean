import LibVmi.Data.Checked

namespace LibVmi.Data

/-! Half-open subslices. -/

def slice (values : List α) (start stop : Nat) : Option (List α) :=
  if start ≤ stop ∧ stop ≤ values.length then
    some ((values.drop start).take (stop - start))
  else
    none

/-- A subslice is the middle of a three-part split of the whole. -/
theorem slice_eq_some {values part : List α} {start stop : Nat} :
    slice values start stop = some part ↔
      ∃ before after, values = before ++ part ++ after ∧
        before.length = start ∧ start + part.length = stop := by
  constructor
  · intro taken
    unfold slice at taken
    split at taken
    · rename_i bounds
      have partEq := Option.some.inj taken
      refine ⟨values.take start, values.drop stop, ?_, ?_, ?_⟩
      · have dropEq :
            values.drop stop = (values.drop start).drop (stop - start) := by
          rw [List.drop_drop]
          congr 1
          omega
        rw [← partEq, List.append_assoc, dropEq, List.take_append_drop,
          List.take_append_drop]
      · simp only [List.length_take]
        omega
      · rw [← partEq]
        simp only [List.length_take, List.length_drop]
        omega
    · contradiction
  · intro given
    obtain ⟨before, after, rfl, rfl, rfl⟩ := given
    unfold slice
    rw [if_pos (by simp only [List.length_append]; omega)]
    simp

theorem slice_exists {values : List α} {start stop : Nat}
    (ordered : start ≤ stop) (within : stop ≤ values.length) :
    ∃ part, slice values start stop = some part :=
  ⟨_, if_pos ⟨ordered, within⟩⟩

/-- A subslice splits where its contents do. -/
theorem slice_eq_append {values first second : List α} {start stop : Nat} :
    slice values start stop = some (first ++ second) ↔
      slice values start (start + first.length) = some first ∧
        slice values (start + first.length) stop = some second := by
  simp only [slice_eq_some]
  constructor
  · intro given
    obtain ⟨before, after, rfl, rfl, rfl⟩ := given
    refine ⟨⟨before, second ++ after, by simp, rfl, trivial⟩,
      ⟨before ++ first, after, by simp, by simp, ?_⟩⟩
    simp only [List.length_append]
    omega
  · intro given
    obtain ⟨⟨before, rest, whole, rfl, _⟩, ⟨longer, after, again, length,
      rfl⟩⟩ := given
    refine ⟨before, after, ?_, rfl, ?_⟩
    · have longerEq : longer = before ++ first := by
        have prefixes := whole.symm.trans again
        rw [List.append_assoc longer] at prefixes
        exact (List.append_inj_left prefixes (by simp [length])).symm
      rw [again, longerEq]
      simp
    · simp only [List.length_append]
      omega

theorem slice_length {values part : List α} {start stop : Nat}
    (taken : slice values start stop = some part) :
    start + part.length = stop ∧ stop ≤ values.length := by
  obtain ⟨before, after, rfl, rfl, rfl⟩ := slice_eq_some.mp taken
  refine ⟨rfl, ?_⟩
  simp only [List.length_append]
  omega

theorem slice_getElem? {values part : List α} {start stop index : Nat}
    (taken : slice values start stop = some part)
    (within : index < part.length) :
    values[start + index]? = part[index]? := by
  obtain ⟨before, after, rfl, rfl, _⟩ := slice_eq_some.mp taken
  rw [List.append_assoc, List.getElem?_append_right (Nat.le_add_right _ _),
    Nat.add_sub_cancel_left, List.getElem?_append_left within]

theorem slice_width {values part : List α} {start width : Nat}
    (taken : slice values start (start + width) = some part) :
    part.length = width :=
  Nat.add_left_cancel (slice_length taken).1

/-- A subslice at the start of what is left is a prefix of it. -/
theorem slice_prefix {values rest part : List α} {start : Nat}
    (taken : slice values start values.length = some rest) :
    slice values start (start + part.length) = some part ↔ part <+: rest := by
  constructor
  · intro first
    obtain ⟨more, second⟩ : ∃ more,
        slice values (start + part.length) values.length = some more :=
      slice_exists (slice_length first).2 (Nat.le_refl _)
    have joined := slice_eq_append.mpr ⟨first, second⟩
    rw [taken, Option.some.injEq] at joined
    exact ⟨more, joined.symm⟩
  · intro given
    obtain ⟨more, rfl⟩ := given
    exact (slice_eq_append.mp taken).1

/-- Subslices of a shared beginning are the same. -/
theorem slice_congr_take {left right : List α} {count start stop : Nat}
    (shared : left.take count = right.take count) (within : stop ≤ count) :
    slice left start stop = slice right start stop := by
  have lengths := congrArg List.length shared
  rw [List.length_take, List.length_take] at lengths
  unfold slice
  by_cases inside : start ≤ stop ∧ stop ≤ left.length
  · have parts (values : List α) :
        (values.drop start).take (stop - start) =
          ((values.take count).take stop).drop start := by
      rw [List.take_take, Nat.min_eq_left within, List.drop_take]
    rw [if_pos inside, if_pos (by omega), parts, parts, shared]
  · rw [if_neg inside, if_neg (by omega)]

/-! Little-endian numbers. -/

def fromLe : List UInt8 → Nat
  | [] => 0
  | byte :: rest => byte.toNat + 256 * fromLe rest

def toLe : (width value : Nat) → List UInt8
  | 0, _ => []
  | width + 1, value =>
      UInt8.ofNat (value % 256) :: toLe width (value / 256)

@[simp] theorem toLe_length (width value : Nat) :
    (toLe width value).length = width := by
  induction width generalizing value with
  | zero => rfl
  | succ width induction => simp [toLe, induction]

theorem fromLe_lt (bytes : List UInt8) :
    fromLe bytes < 256 ^ bytes.length := by
  induction bytes with
  | nil => simp [fromLe]
  | cons byte rest induction =>
      have byteBound := byte.toNat_lt
      simp only [fromLe, List.length_cons, Nat.pow_succ]
      omega

theorem fromLe_toLe_mod (width value : Nat) :
    fromLe (toLe width value) = value % 256 ^ width := by
  induction width generalizing value with
  | zero =>
      rw [Nat.pow_zero, Nat.mod_one]
      rfl
  | succ width induction =>
      simp only [toLe, fromLe]
      rw [induction, UInt8.toNat_ofNat_of_lt' (by
        simp only [UInt8.size]
        omega), Nat.pow_succ', Nat.mod_mul]

theorem fromLe_toLe {width value : Nat} (bound : value < 256 ^ width) :
    fromLe (toLe width value) = value := by
  rw [fromLe_toLe_mod, Nat.mod_eq_of_lt bound]

theorem toLe_take {count width : Nat} (within : count ≤ width) (value : Nat) :
    (toLe width value).take count = toLe count value := by
  induction count generalizing width value with
  | zero => rfl
  | succ count induction =>
      cases width with
      | zero => omega
      | succ width =>
          rw [toLe, toLe, List.take_succ_cons,
            induction (Nat.le_of_succ_le_succ within)]

theorem toLe_fromLe (bytes : List UInt8) :
    toLe bytes.length (fromLe bytes) = bytes := by
  induction bytes with
  | nil => rfl
  | cons byte rest induction =>
      have byteBound := byte.toNat_lt
      have low : (byte.toNat + 256 * fromLe rest) % 256 = byte.toNat := by
        omega
      have high : (byte.toNat + 256 * fromLe rest) / 256 = fromLe rest := by
        omega
      simp only [List.length_cons, fromLe, toLe]
      rw [low, high, induction]
      simp

/-! Byte buffers. An allocation never exceeds the largest signed size of the
host, so the bound is part of the type. -/

structure Buffer where
  bytes : List UInt8
  length_lt : bytes.length < 2 ^ 63
  deriving DecidableEq

namespace Buffer

def length (data : Buffer) : Nat := data.bytes.length

@[ext] theorem ext {left right : Buffer}
    (same : left.bytes = right.bytes) : left = right := by
  cases left
  cases right
  simp_all

theorem length_lt_limit (data : Buffer) : data.length < Usize.limit :=
  Nat.lt_of_lt_of_le data.length_lt (by decide)

def empty : Buffer := ⟨[], by decide⟩

/-- A buffer with room for the bytes, where the host can allocate one. -/
def allocate (bytes : List UInt8) : Option Buffer :=
  if bound : bytes.length < 2 ^ 63 then some ⟨bytes, bound⟩ else none

theorem allocate_eq_some {bytes : List UInt8} {buffer : Buffer} :
    allocate bytes = some buffer ↔ buffer.bytes = bytes := by
  unfold allocate
  constructor
  · intro allocated
    split at allocated
    · rw [← Option.some.inj allocated]
    · contradiction
  · intro same
    subst same
    rw [dif_pos buffer.length_lt]

theorem allocate_eq_none {bytes : List UInt8} :
    allocate bytes = none ↔ 2 ^ 63 ≤ bytes.length := by
  unfold allocate
  constructor
  · intro refused
    split at refused
    · contradiction
    · rename_i large
      exact Nat.not_lt.mp large
  · intro large
    exact dif_neg (Nat.not_lt.mpr large)

theorem length_of_allocate {held longer : Buffer} {chunk : List UInt8}
    (allocated : allocate (held.bytes ++ chunk) = some longer) :
    longer.length = held.length + chunk.length := by
  rw [length, allocate_eq_some.mp allocated, List.length_append]
  rfl

def get (data : Buffer) (start stop : Nat) : Option Buffer :=
  match taken : slice data.bytes start stop with
  | some part => some ⟨part, by
      have bounds := slice_length taken
      have whole := data.length_lt
      omega⟩
  | none => none

theorem take_length_lt (data : Buffer) (count : Nat) :
    (data.bytes.take count).length < 2 ^ 63 :=
  Nat.lt_of_le_of_lt (List.length_take_le' count data.bytes) data.length_lt

/-- The beginning of a buffer, all of it where it is not longer. -/
def first (data : Buffer) (count : Nat) : Buffer :=
  ⟨data.bytes.take count, data.take_length_lt count⟩

@[simp] theorem first_bytes (data : Buffer) (count : Nat) :
    (data.first count).bytes = data.bytes.take count := rfl

theorem set_length_lt (data : Buffer) (index : Nat) (value : UInt8) :
    (data.bytes.set index value).length < 2 ^ 63 := by
  rw [List.length_set]
  exact data.length_lt

/-- A buffer with one byte replaced, where it has the index. -/
def set (data : Buffer) (index : Nat) (value : UInt8) : Buffer :=
  ⟨data.bytes.set index value, data.set_length_lt index value⟩

@[simp] theorem set_bytes (data : Buffer) (index : Nat) (value : UInt8) :
    (data.set index value).bytes = data.bytes.set index value := rfl

theorem get_eq_some {data part : Buffer} {start stop : Nat} :
    data.get start stop = some part ↔
      slice data.bytes start stop = some part.bytes := by
  unfold get
  split
  · rename_i taken
    simp [taken, Buffer.ext_iff]
  · rename_i taken
    simp [taken]

theorem get_congr_take {left right : Buffer} {count start stop : Nat}
    (shared : left.bytes.take count = right.bytes.take count)
    (within : stop ≤ count) : left.get start stop = right.get start stop := by
  ext part
  rw [get_eq_some, get_eq_some, slice_congr_take shared within]

end Buffer

end LibVmi.Data
