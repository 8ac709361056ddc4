import LibVmi.Types

namespace LibVmi.Artifact

open Data

/-! Little-endian fields of an artifact. -/

/-- The bytes of an ASCII literal. -/
def ascii (text : String) : List UInt8 :=
  text.toList.map fun char => UInt8.ofNat char.toNat

def addOffset (base delta : Nat) : Result Nat :=
  okOr (Usize.checkedAdd base delta) (.backend "artifact field offset overflow")

def readArray (data : Buffer) (width offset : Nat) : Result Buffer := do
  let stop ← okOr (Usize.checkedAdd offset width)
    (.backend "artifact field offset overflow")
  okOr (data.get offset stop) (.backend "truncated artifact field")

def readU16 (data : Buffer) (offset : Nat) : Result UInt16 := do
  let bytes ← readArray data 2 offset
  return UInt16.ofNat (fromLe bytes.bytes)

def readU32 (data : Buffer) (offset : Nat) : Result UInt32 := do
  let bytes ← readArray data 4 offset
  return UInt32.ofNat (fromLe bytes.bytes)

def readU64 (data : Buffer) (offset : Nat) : Result UInt64 := do
  let bytes ← readArray data 8 offset
  return UInt64.ofNat (fromLe bytes.bytes)

@[simp] theorem addOffset_eq_ok {base delta result : Nat} :
    addOffset base delta = .ok result ↔
      result = base + delta ∧ base + delta < Usize.limit := by
  rw [addOffset, okOr_eq_ok, Usize.checkedAdd_eq_some]

/-- The number that a field holds, whatever lies past the end left out. -/
def fieldAt (data : Buffer) (offset width : Nat) : Nat :=
  fromLe ((data.bytes.drop offset).take width)

theorem fieldAt_lt (data : Buffer) (offset width : Nat) :
    fieldAt data offset width < 256 ^ width := by
  refine Nat.lt_of_lt_of_le (fromLe_lt _) ?_
  exact Nat.pow_le_pow_right (by decide) (List.length_take_le _ _)

theorem toNat_ofField {data : Buffer} {offset : Nat} :
    (UInt64.ofNat (fieldAt data offset 8)).toNat = fieldAt data offset 8 :=
  UInt64.toNat_ofNat_of_lt' (fieldAt_lt data offset 8)

theorem ofField_iff {data : Buffer} {offset : Nat} {value : UInt64} :
    fieldAt data offset 8 = value.toNat ↔
      value = UInt64.ofNat (fieldAt data offset 8) := by
  constructor
  · intro held
    rw [held, UInt64.ofNat_toNat]
  · intro given
    rw [given, toNat_ofField]

/-- A field is read exactly when it lies within the artifact. -/
theorem readArray_eq_ok {data bytes : Buffer} {width offset : Nat} :
    readArray data width offset = .ok bytes ↔
      slice data.bytes offset (offset + width) = some bytes.bytes := by
  unfold readArray
  rw [bind_eq_ok]
  simp only [okOr_eq_ok, Usize.checkedAdd_eq_some, Buffer.get_eq_some]
  constructor
  · intro given
    obtain ⟨_, ⟨rfl, _⟩, taken⟩ := given
    exact taken
  · intro taken
    have bounds := slice_length taken
    have whole := data.length_lt_limit
    unfold Buffer.length at whole
    exact ⟨_, ⟨rfl, by omega⟩, taken⟩

theorem readArray_of_within {data : Buffer} {width offset : Nat}
    (within : offset + width ≤ data.length) :
    ∃ bytes, readArray data width offset = .ok bytes := by
  obtain ⟨bytes, taken⟩ := slice_exists (Nat.le_add_right offset width) within
  have length := slice_length taken
  have whole := data.length_lt
  exact ⟨⟨bytes, by omega⟩, readArray_eq_ok.mpr taken⟩

theorem readArray_congr_take {left right : Buffer} {count width offset : Nat}
    (shared : left.bytes.take count = right.bytes.take count)
    (within : offset + width ≤ count) :
    readArray left width offset = readArray right width offset := by
  unfold readArray
  cases added : Usize.checkedAdd offset width with
  | none => rfl
  | some stop =>
      obtain ⟨rfl, _⟩ := Usize.checkedAdd_eq_some.mp added
      rw [okOr_some, ok_bind, ok_bind, Buffer.get_congr_take shared within]

section Scalars

variable {α : Type} {width : Nat} {ofNat : Nat → α} {toNat : α → Nat}

/-- Reading a number of `width` bytes is finding its encoding. -/
private theorem readNumber_eq_ok
    (toNat_ofNat : ∀ value, value < 256 ^ width → toNat (ofNat value) = value)
    (ofNat_toNat : ∀ value, ofNat (toNat value) = value)
    (toNat_lt : ∀ value, toNat value < 256 ^ width)
    {data : Buffer} {offset : Nat} {value : α} :
    (do let bytes ← readArray data width offset
        return ofNat (fromLe bytes.bytes) : Result α) = .ok value ↔
      slice data.bytes offset (offset + width) =
        some (toLe width (toNat value)) := by
  rw [bind_eq_ok]
  simp only [readArray_eq_ok, pure_eq_ok, Except.ok.injEq]
  constructor
  · intro given
    obtain ⟨bytes, taken, rfl⟩ := given
    have length : bytes.bytes.length = width := by
      have bounds := slice_length taken
      omega
    have bound := fromLe_lt bytes.bytes
    rw [length] at bound
    rw [taken, toNat_ofNat _ bound, ← length, toLe_fromLe]
  · intro taken
    have bounds := slice_length taken
    have whole := data.length_lt
    refine ⟨⟨toLe width (toNat value), by omega⟩, taken, ?_⟩
    rw [fromLe_toLe (toNat_lt value), ofNat_toNat]

end Scalars

theorem readU16_eq_ok {data : Buffer} {offset : Nat} {value : UInt16} :
    readU16 data offset = .ok value ↔
      slice data.bytes offset (offset + 2) = some (toLe 2 value.toNat) :=
  readNumber_eq_ok (fun _ bound => UInt16.toNat_ofNat_of_lt' bound)
    (fun _ => UInt16.ofNat_toNat) UInt16.toNat_lt

theorem readU32_eq_ok {data : Buffer} {offset : Nat} {value : UInt32} :
    readU32 data offset = .ok value ↔
      slice data.bytes offset (offset + 4) = some (toLe 4 value.toNat) :=
  readNumber_eq_ok (fun _ bound => UInt32.toNat_ofNat_of_lt' bound)
    (fun _ => UInt32.ofNat_toNat) UInt32.toNat_lt

/-- An encoded number is found where the field lies within the artifact and
holds it. -/
theorem slice_eq_toLe {data : Buffer} {width offset value : Nat}
    (bound : value < 256 ^ width) :
    slice data.bytes offset (offset + width) = some (toLe width value) ↔
      offset + width ≤ data.length ∧ fieldAt data offset width = value := by
  unfold slice fieldAt Buffer.length
  rw [Nat.add_sub_cancel_left]
  by_cases within : offset + width ≤ data.bytes.length
  · rw [if_pos ⟨Nat.le_add_right _ _, within⟩, Option.some.injEq]
    have length : ((data.bytes.drop offset).take width).length = width := by
      rw [List.length_take, List.length_drop]
      omega
    constructor
    · intro held
      rw [held, fromLe_toLe bound]
      exact ⟨within, rfl⟩
    · intro given
      have encoded := toLe_fromLe ((data.bytes.drop offset).take width)
      rw [length, given.2] at encoded
      exact encoded.symm
  · rw [if_neg (by omega)]
    simp [within]

theorem readU16_eq_field {data : Buffer} {offset : Nat} {value : UInt16} :
    readU16 data offset = .ok value ↔
      offset + 2 ≤ data.length ∧ fieldAt data offset 2 = value.toNat := by
  rw [readU16_eq_ok, slice_eq_toLe value.toNat_lt]

theorem readU32_eq_field {data : Buffer} {offset : Nat} {value : UInt32} :
    readU32 data offset = .ok value ↔
      offset + 4 ≤ data.length ∧ fieldAt data offset 4 = value.toNat := by
  rw [readU32_eq_ok, slice_eq_toLe value.toNat_lt]

theorem readU32_congr_take {left right : Buffer} {count offset : Nat}
    (shared : left.bytes.take count = right.bytes.take count)
    (within : offset + 4 ≤ count) :
    readU32 left offset = readU32 right offset := by
  rw [readU32, readU32, readArray_congr_take shared within]

theorem readU32_of_within {data : Buffer} {offset : Nat}
    (within : offset + 4 ≤ data.length) :
    ∃ value, readU32 data offset = .ok value := by
  obtain ⟨bytes, read⟩ := readArray_of_within within
  exact ⟨_, by rw [readU32, read, ok_bind]; rfl⟩

theorem readU64_eq_ok {data : Buffer} {offset : Nat} {value : UInt64} :
    readU64 data offset = .ok value ↔
      slice data.bytes offset (offset + 8) = some (toLe 8 value.toNat) :=
  readNumber_eq_ok (fun _ bound => UInt64.toNat_ofNat_of_lt' bound)
    (fun _ => UInt64.ofNat_toNat) UInt64.toNat_lt

theorem readU64_eq_field {data : Buffer} {offset : Nat} {value : UInt64} :
    readU64 data offset = .ok value ↔
      offset + 8 ≤ data.length ∧ fieldAt data offset 8 = value.toNat := by
  rw [readU64_eq_ok, slice_eq_toLe value.toNat_lt]

theorem readU64_congr_take {left right : Buffer} {count offset : Nat}
    (shared : left.bytes.take count = right.bytes.take count)
    (within : offset + 8 ≤ count) :
    readU64 left offset = readU64 right offset := by
  rw [readU64, readU64, readArray_congr_take shared within]

theorem readU64_of_within {data : Buffer} {offset : Nat}
    (within : offset + 8 ≤ data.length) :
    ∃ value, readU64 data offset = .ok value := by
  obtain ⟨bytes, read⟩ := readArray_of_within within
  exact ⟨_, by rw [readU64, read, ok_bind]; rfl⟩

end LibVmi.Artifact
