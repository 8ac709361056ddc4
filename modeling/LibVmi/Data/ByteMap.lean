import LibVmi.Data.Checked
import Mathlib.Logic.Function.Basic

namespace LibVmi.Data

/-! Memory as a partial map from addresses to values: what consecutive addresses
hold, and what a series of stores leaves behind. -/

section Ranges

variable {β : Type} {values other : Nat → Option β} {start shift : Nat}

def readRange (values : Nat → Option β) (start : Nat) :
    (length : Nat) → Option (List β)
  | 0 => some []
  | length + 1 => do
      let value ← values start
      let rest ← readRange values (start + 1) length
      return value :: rest

theorem readRange_succ_eq_some {length : Nat} {out : List β} :
    readRange values start (length + 1) = some out ↔
      ∃ value rest, values start = some value ∧
        readRange values (start + 1) length = some rest ∧
        out = value :: rest := by
  simp only [readRange, Option.bind_eq_bind, Option.bind_eq_some_iff,
    Option.pure_def, Option.some.injEq, exists_and_left, eq_comm (a := out)]

/-- A range is read exactly when every address of it holds what is read
there. -/
theorem readRange_eq_some {length : Nat} {out : List β} :
    readRange values start length = some out ↔
      out.length = length ∧
        ∀ index < length, values (start + index) = out[index]? := by
  induction length generalizing start out with
  | zero =>
      simp only [readRange, Option.some.injEq, Nat.not_lt_zero, false_imp_iff,
        implies_true, and_true, List.length_eq_zero_iff]
      exact eq_comm
  | succ length induction =>
      rw [readRange_succ_eq_some]
      constructor
      · intro given
        obtain ⟨value, rest, held, read, rfl⟩ := given
        obtain ⟨lengthEq, each⟩ := induction.mp read
        refine ⟨by rw [List.length_cons, lengthEq], ?_⟩
        intro index below
        cases index with
        | zero => simpa using held
        | succ index =>
            rw [List.getElem?_cons_succ, ← each index (by omega)]
            congr 1
            omega
      · intro given
        obtain ⟨lengthEq, each⟩ := given
        cases out with
        | nil => contradiction
        | cons value rest =>
            refine ⟨value, rest, ?_, induction.mpr ⟨?_, ?_⟩, rfl⟩
            · simpa using each 0 (Nat.succ_pos length)
            · simpa using lengthEq
            · intro index below
              rw [← List.getElem?_cons_succ (a := value),
                ← each (index + 1) (by omega)]
              congr 1
              omega

theorem readRange_length {length : Nat} {out : List β}
    (read : readRange values start length = some out) : out.length = length :=
  (readRange_eq_some.mp read).1

theorem readRange_exists_iff {length : Nat} :
    (∃ out, readRange values start length = some out) ↔
      ∀ index < length, ∃ value, values (start + index) = some value := by
  induction length generalizing start with
  | zero => simp [readRange]
  | succ length induction =>
      simp only [readRange_succ_eq_some, exists_and_left]
      constructor
      · intro given
        obtain ⟨_, value, held, rest, read, _⟩ := given
        intro index below
        cases index with
        | zero => exact ⟨value, held⟩
        | succ index =>
            have tail := induction.mp ⟨rest, read⟩ index (by omega)
            rwa [Nat.add_assoc, Nat.add_comm 1] at tail
      · intro each
        obtain ⟨value, held⟩ := each 0 (Nat.succ_pos length)
        have later : ∀ index < length, ∃ value,
            values (start + 1 + index) = some value := by
          intro index below
          rw [Nat.add_assoc, Nat.add_comm 1]
          exact each (index + 1) (by omega)
        obtain ⟨rest, read⟩ := induction.mpr later
        exact ⟨value :: rest, value, held, rest, read, rfl⟩

/-- A range is read in two parts as it is read in one. -/
theorem readRange_add (first second : Nat) :
    readRange values start (first + second) = (do
      let left ← readRange values start first
      let right ← readRange values (start + first) second
      return left ++ right) := by
  induction first generalizing start with
  | zero =>
      rw [Nat.zero_add, Nat.add_zero]
      cases readRange values start second <;> rfl
  | succ first induction =>
      rw [show first + 1 + second = first + second + 1 by omega, readRange,
        readRange, induction, show start + 1 + first = start + (first + 1) by
          omega]
      cases values start with
      | none => rfl
      | some value =>
          cases readRange values (start + 1) first with
          | none => rfl
          | some left =>
              cases readRange values (start + (first + 1)) second <;> rfl

theorem readRange_congr {length : Nat}
    (same : ∀ index < length, values (start + index) = other (shift + index)) :
    readRange values start length = readRange other shift length := by
  induction length generalizing start shift with
  | zero => rfl
  | succ length induction =>
      have tail : readRange values (start + 1) length =
          readRange other (shift + 1) length := by
        apply induction
        intro index below
        rw [Nat.add_assoc, Nat.add_assoc, Nat.add_comm 1]
        exact same (index + 1) (by omega)
      have head : values start = other shift := same 0 (Nat.succ_pos length)
      rw [readRange, readRange, head, tail]

/-- A range that cannot be read lacks one of its values. -/
theorem readRange_eq_none {length : Nat}
    (unread : readRange values start length = none) :
    ∃ offset < length, values (start + offset) = none := by
  by_contra whole
  have readable : ∃ out, readRange values start length = some out := by
    refine readRange_exists_iff.mpr ?_
    intro offset below
    refine Option.ne_none_iff_exists'.mp ?_
    exact fun absent => whole ⟨offset, below, absent⟩
  obtain ⟨out, found⟩ := readable
  rw [unread] at found
  cases found

/-- Nothing is read from a range that lacks one of its values. -/
theorem readRange_of_absent {length offset : Nat} (below : offset < length)
    (absent : values (start + offset) = none) :
    readRange values start length = none := by
  cases read : readRange values start length with
  | none => rfl
  | some out =>
      obtain ⟨value, held⟩ := readRange_exists_iff.mp ⟨out, read⟩ offset below
      rw [absent] at held
      contradiction

/-- Nothing is read from a range whose first address holds nothing. -/
theorem readRange_of_none {length : Nat} (positive : 0 < length)
    (absent : values start = none) : readRange values start length = none :=
  readRange_of_absent positive absent

end Ranges

section Addresses

variable {β : Type}

/-- A 64-bit memory at natural addresses: nothing is there past its end. -/
def atAddress (contents : UInt64 → Option β) (address : Nat) : Option β :=
  (tryFrom address).bind contents

theorem atAddress_eq_some {contents : UInt64 → Option β} {address : Nat}
    {value : β} :
    atAddress contents address = some value ↔
      ∃ word : UInt64, word.toNat = address ∧ contents word = some value := by
  simp only [atAddress, Option.bind_eq_some_iff, tryFrom_eq_some,
    unsigned_toNat_uint64]

theorem atAddress_toNat (contents : UInt64 → Option β) {word : UInt64}
    {address : Nat} (same : word.toNat = address) :
    atAddress contents address = contents word := by
  rw [atAddress, tryFrom_eq_some.mpr same, Option.bind_some]

theorem atAddress_of_le (contents : UInt64 → Option β) {address : Nat}
    (outside : 2 ^ 64 ≤ address) : atAddress contents address = none := by
  cases held : atAddress contents address with
  | none => rfl
  | some value =>
      obtain ⟨word, same, _⟩ := atAddress_eq_some.mp held
      have bound := word.toNat_lt
      omega

/-- The addresses from `start` on. -/
def wordsFrom (start count : Nat) : List UInt64 :=
  (List.range' start count).map UInt64.ofNat

@[simp] theorem wordsFrom_length (start count : Nat) :
    (wordsFrom start count).length = count := by
  rw [wordsFrom, List.length_map, List.length_range']

theorem wordsFrom_getElem? {start count index : Nat} {target : UInt64}
    (held : (wordsFrom start count)[index]? = some target)
    (fits : start + count ≤ 2 ^ 64) :
    index < count ∧ target.toNat = start + index := by
  have below : index < (wordsFrom start count).length :=
    (List.getElem?_eq_some_iff.mp held).1
  rw [wordsFrom_length] at below
  rw [wordsFrom, List.getElem?_map, List.getElem?_range' below, Option.map_some,
    Option.some.injEq] at held
  refine ⟨below, ?_⟩
  rw [← held, Nat.one_mul]
  exact UInt64.toNat_ofNat_of_lt' (by simp only [UInt64.size]; omega)

end Addresses

section Stores

variable {α β : Type} [DecidableEq α]

/-- Stores one after the other, so that the last one at an address stands. -/
def storeAll (contents : α → Option β) (stores : List (α × β)) :
    α → Option β :=
  stores.foldl
    (fun contents store => Function.update contents store.1 (some store.2))
    contents

@[simp] theorem storeAll_nil (contents : α → Option β) :
    storeAll contents [] = contents := rfl

theorem storeAll_append (contents : α → Option β)
    (first second : List (α × β)) :
    storeAll contents (first ++ second) =
      storeAll (storeAll contents first) second :=
  List.foldl_append

theorem storeAll_apart {contents : α → Option β} {stores : List (α × β)}
    {address : α} (apart : ∀ store ∈ stores, store.1 ≠ address) :
    storeAll contents stores address = contents address := by
  induction stores generalizing contents with
  | nil => rfl
  | cons store rest induction =>
      simp only [List.forall_mem_cons] at apart
      rw [← List.singleton_append, storeAll_append, induction apart.2]
      exact Function.update_of_ne apart.1.symm _ _

end Stores

end LibVmi.Data
