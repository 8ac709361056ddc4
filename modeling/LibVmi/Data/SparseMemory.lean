import LibVmi.Data.Bytes
import LibVmi.Data.Intervals

namespace LibVmi.Data.Sparse

open Intervals

/-! A memory is a partial function of addresses. A list of parts is a memory in
which the first part that holds an address answers for it. -/

def read (memory : Nat → Option β) : (start count : Nat) → Option (List β)
  | _, 0 => some []
  | start, count + 1 =>
      match memory start, read memory (start + 1) count with
      | some value, some rest => some (value :: rest)
      | _, _ => none

theorem read_succ_eq_some {memory : Nat → Option β} {start count : Nat}
    {value : β} {rest : List β} :
    read memory start (count + 1) = some (value :: rest) ↔
      memory start = some value ∧
        read memory (start + 1) count = some rest := by
  rw [read]
  cases memory start with
  | none => simp
  | some first =>
      cases read memory (start + 1) count with
      | none => simp
      | some others => simp

theorem read_succ_ne_nil {memory : Nat → Option β} {start count : Nat} :
    read memory start (count + 1) ≠ some [] := by
  rw [read]
  cases memory start with
  | none => simp
  | some first => cases read memory (start + 1) count <;> simp

theorem read_eq_some {memory : Nat → Option β} {start count : Nat}
    {values : List β} :
    read memory start count = some values ↔ values.length = count ∧
      ∀ index < count, memory (start + index) = values[index]? := by
  induction count generalizing start values with
  | zero => simp [read, eq_comm]
  | succ count induction =>
      cases values with
      | nil => simp [read_succ_ne_nil]
      | cons value rest =>
          rw [read_succ_eq_some, induction]
          constructor
          · intro given
            obtain ⟨first, lengths, others⟩ := given
            refine ⟨by simp [lengths], ?_⟩
            intro index below
            cases index with
            | zero => simpa using first
            | succ index =>
                have shifted := others index (by omega)
                rw [List.getElem?_cons_succ, ← shifted]
                congr 1
                omega
          · intro given
            obtain ⟨lengths, all⟩ := given
            refine ⟨by simpa using all 0 (by omega),
              by simpa using lengths, ?_⟩
            intro index below
            have shifted := all (index + 1) (by omega)
            rw [List.getElem?_cons_succ] at shifted
            rw [← shifted]
            congr 1
            omega

theorem read_length {memory : Nat → Option β} {start count : Nat}
    {values : List β} (found : read memory start count = some values) :
    values.length = count :=
  (read_eq_some.mp found).1

theorem read_congr {memory other : Nat → Option β} {start count : Nat}
    (same : ∀ address, start ≤ address → address < start + count →
      memory address = other address) :
    read memory start count = read other start count := by
  ext values
  simp only [read_eq_some]
  constructor
  · intro given
    refine ⟨given.1, fun index below => ?_⟩
    rw [← same (start + index) (by omega) (by omega), given.2 index below]
  · intro given
    refine ⟨given.1, fun index below => ?_⟩
    rw [same (start + index) (by omega) (by omega), given.2 index below]

theorem read_split {memory : Nat → Option β} {start count more : Nat}
    {values : List β}
    (found : read memory start (count + more) = some values) :
    read memory start count = some (values.take count) ∧
      read memory (start + count) more = some (values.drop count) := by
  simp only [read_eq_some] at found ⊢
  obtain ⟨lengths, all⟩ := found
  refine ⟨⟨by simp [lengths], fun index below => ?_⟩,
    ⟨by simp [lengths], fun index below => ?_⟩⟩
  · rw [List.getElem?_take_of_lt below]
    exact all index (by omega)
  · rw [List.getElem?_drop, ← all (count + index) (by omega), Nat.add_assoc]

/-- A range can be read when each of its addresses can. -/
theorem read_isSome {memory : Nat → Option β} {start count : Nat} :
    (read memory start count).isSome ↔ ∀ address, start ≤ address →
      address < start + count → (memory address).isSome := by
  constructor
  · intro readable address after before
    obtain ⟨values, found⟩ := Option.isSome_iff_exists.mp readable
    obtain ⟨lengths, all⟩ := read_eq_some.mp found
    have here := all (address - start) (by omega)
    rw [Nat.add_sub_cancel' after] at here
    rw [here]
    simp only [List.getElem?_eq_getElem (by omega : address - start <
      values.length), Option.isSome_some]
  · intro present
    induction count generalizing start with
    | zero => rfl
    | succ count induction =>
        obtain ⟨value, here⟩ := Option.isSome_iff_exists.mp
          (present start (Nat.le_refl start) (by omega))
        have later : (read memory (start + 1) count).isSome := by
          apply induction
          intro address after before
          exact present address (by omega) (by omega)
        obtain ⟨rest, others⟩ := Option.isSome_iff_exists.mp later
        exact Option.isSome_iff_exists.mpr
          ⟨value :: rest, read_succ_eq_some.mpr ⟨here, others⟩⟩

section Parts

variable (lower : α → Nat) (content : α → List β)

def upper (part : α) : Nat := lower part + (content part).length

def valueIn (part : α) (address : Nat) : Option β :=
  if lower part ≤ address then (content part)[address - lower part]? else none

def lookup (parts : List α) (address : Nat) : Option β :=
  parts.findSome? fun part => valueIn lower content part address

variable {lower content}

theorem valueIn_isSome {part : α} {address : Nat} :
    (valueIn lower content part address).isSome ↔
      lower part ≤ address ∧ address < upper lower content part := by
  unfold valueIn upper
  split
  · simp only [List.getElem?_eq_some_iff, Option.isSome_iff_exists]
    constructor
    · intro given
      obtain ⟨value, within, _⟩ := given
      omega
    · intro bounds
      exact ⟨_, by omega, rfl⟩
  · simp
    omega

theorem valueIn_eq_none {part : α} {address : Nat}
    (outside : address < lower part ∨ upper lower content part ≤ address) :
    valueIn lower content part address = none := by
  rw [← Option.not_isSome_iff_eq_none, valueIn_isSome]
  omega

theorem lookup_cons_within {part : α} {parts : List α} {address : Nat}
    (after : lower part ≤ address)
    (before : address < upper lower content part) :
    lookup lower content (part :: parts) address =
      valueIn lower content part address := by
  obtain ⟨value, found⟩ := Option.isSome_iff_exists.mp
    (valueIn_isSome.mpr ⟨after, before⟩)
  simp [lookup, found]

theorem lookup_cons_outside {part : α} {parts : List α} {address : Nat}
    (outside : address < lower part ∨ upper lower content part ≤ address) :
    lookup lower content (part :: parts) address =
      lookup lower content parts address := by
  simp [lookup, valueIn_eq_none outside]

theorem lookup_isSome {parts : List α} {address : Nat} :
    (lookup lower content parts address).isSome ↔
      ∃ part ∈ parts, lower part ≤ address ∧
        address < upper lower content part := by
  simp only [lookup, List.findSome?_isSome_iff, valueIn_isSome]

theorem lookup_map {γ : Type*} (convert : γ → α) (parts : List γ)
    (address : Nat) :
    lookup lower content (parts.map convert) address =
      lookup (lower ∘ convert) (content ∘ convert) parts address := by
  simp only [lookup, List.findSome?_map]
  rfl

/-- Where no two parts meet, any part that holds an address answers for it. -/
theorem lookup_of_mem {parts : List α}
    (disjoint : parts.Pairwise fun left right =>
      ¬ Meet lower (upper lower content) left right)
    {part : α} (member : part ∈ parts) {address : Nat}
    (after : lower part ≤ address)
    (before : address < upper lower content part) :
    lookup lower content parts address =
      valueIn lower content part address := by
  induction parts with
  | nil => contradiction
  | cons head rest induction =>
      obtain ⟨apart, others⟩ := List.pairwise_cons.mp disjoint
      cases List.mem_cons.mp member with
      | inl same =>
          subst same
          exact lookup_cons_within after before
      | inr inRest =>
          rw [lookup_cons_outside]
          · exact induction others inRest
          · by_contra inside
            exact apart part inRest
              ⟨address, by omega, after, before⟩

/-- A memory does not depend on the order of its parts, nor on parts that hold
nothing. -/
theorem lookup_eq_of_same_parts {parts others : List α}
    (disjoint : parts.Pairwise fun left right =>
      ¬ Meet lower (upper lower content) left right)
    (disjointOthers : others.Pairwise fun left right =>
      ¬ Meet lower (upper lower content) left right)
    (same : ∀ part, lower part < upper lower content part →
      (part ∈ parts ↔ part ∈ others)) (address : Nat) :
    lookup lower content parts address =
      lookup lower content others address := by
  by_cases held : (lookup lower content parts address).isSome
  · obtain ⟨part, member, after, before⟩ := lookup_isSome.mp held
    rw [lookup_of_mem disjoint member after before,
      lookup_of_mem disjointOthers ((same part (by omega)).mp member) after
        before]
  · have notHeld : ¬ (lookup lower content others address).isSome := by
      intro present
      obtain ⟨part, member, after, before⟩ := lookup_isSome.mp present
      exact held (lookup_isSome.mpr
        ⟨part, (same part (by omega)).mpr member, after, before⟩)
    rw [Option.not_isSome_iff_eq_none] at held notHeld
    rw [held, notHeld]

/-- Within the first part, reading is slicing its content. -/
theorem read_cons_within {part : α} {parts : List α} {start count : Nat}
    {values : List β} (after : lower part ≤ start)
    (taken : slice (content part) (start - lower part)
      (start - lower part + count) = some values) :
    read (lookup lower content (part :: parts)) start count =
      some values := by
  have within := (slice_length taken).2
  have lengths := slice_width taken
  refine read_eq_some.mpr ⟨lengths, fun index below => ?_⟩
  rw [lookup_cons_within (by omega) (by unfold upper; omega), valueIn,
    if_pos (by omega)]
  obtain ⟨before, rest, whole, beforeLength, _⟩ := slice_eq_some.mp taken
  rw [whole, List.append_assoc, List.getElem?_append_right (by omega),
    List.getElem?_append_left (by omega)]
  congr 1
  omega

end Parts

/-! A series of values laid over a memory, and over the parts of one. -/

def overlay (start : Nat) (values : List β) (memory : Nat → Option β)
    (address : Nat) : Option β :=
  if start ≤ address ∧ address < start + values.length then
    values[address - start]?
  else
    memory address

section Overlays

variable {start : Nat} {values first second : List β}
  {memory : Nat → Option β} {address : Nat}

theorem overlay_inside (after : start ≤ address)
    (before : address < start + values.length) :
    overlay start values memory address = values[address - start]? :=
  if_pos ⟨after, before⟩

theorem overlay_outside
    (outside : address < start ∨ start + values.length ≤ address) :
    overlay start values memory address = memory address :=
  if_neg (by omega)

@[simp] theorem overlay_nil : overlay start [] memory = memory := by
  funext address
  exact overlay_outside (by rw [List.length_nil]; omega)

/-- Two overlays that follow each other are one. -/
theorem overlay_append :
    overlay (start + first.length) second (overlay start first memory) =
      overlay start (first ++ second) memory := by
  funext address
  have lengths : (first ++ second).length = first.length + second.length :=
    List.length_append
  by_cases inFirst : start ≤ address ∧ address < start + first.length
  · rw [overlay_outside (.inl inFirst.2),
      overlay_inside inFirst.1 inFirst.2, overlay_inside inFirst.1 (by omega),
      List.getElem?_append_left (by omega)]
  · by_cases inSecond : start + first.length ≤ address ∧
        address < start + first.length + second.length
    · rw [overlay_inside inSecond.1 inSecond.2,
        overlay_inside (by omega) (by omega),
        List.getElem?_append_right (by omega)]
      congr 1
      omega
    · rw [overlay_outside (by omega), overlay_outside (by omega),
        overlay_outside (by omega)]

/-- What was laid over a memory is read back from it. -/
theorem read_overlay (start : Nat) (values : List β)
    (memory : Nat → Option β) :
    read (overlay start values memory) start values.length = some values := by
  refine read_eq_some.mpr ⟨rfl, fun index below => ?_⟩
  rw [overlay_inside (by omega) (by omega), Nat.add_sub_cancel_left]

variable (lower : α → Nat) (content : α → List β)

/-- A part that kept its place, with the values that fall on it in the place of
what it held there. -/
structure Overlaid (start : Nat) (values : List β) (before after : α) :
    Prop where
  lowerEq : lower after = lower before
  lengthEq : (content after).length = (content before).length
  held : ∀ address, (valueIn lower content before address).isSome →
    valueIn lower content after address =
      overlay start values (valueIn lower content before) address

variable {lower content} {part before middle after : α}
  {parts others : List α}

namespace Overlaid

/-- A part on which no value falls stays as it was. -/
theorem of_apart (apart : ∀ address, start ≤ address →
      address < start + values.length →
      ¬ (valueIn lower content part address).isSome) :
    Overlaid lower content start values part part where
  lowerEq := rfl
  lengthEq := rfl
  held := by
    intro address present
    rw [overlay_outside]
    by_contra inside
    exact apart address (by omega) (by omega) present

theorem refl : Overlaid lower content start [] part part where
  lowerEq := rfl
  lengthEq := rfl
  held := by
    intro address _
    rw [overlay_nil]

/-- One value is laid over a part by setting it at its place. -/
theorem of_set {value : β} (low : lower before ≤ address)
    (lowerEq : lower after = lower before)
    (contentEq : content after =
      (content before).set (address - lower before) value) :
    Overlaid lower content address [value] before after where
  lowerEq := lowerEq
  lengthEq := by rw [contentEq, List.length_set]
  held := by
    intro point present
    obtain ⟨lowPoint, highPoint⟩ := valueIn_isSome.mp present
    unfold upper at highPoint
    rw [valueIn, lowerEq, contentEq, if_pos lowPoint, List.getElem?_set]
    by_cases same : point = address
    · subst same
      rw [if_pos rfl, if_pos (by omega),
        overlay_inside (Nat.le_refl point) (by simp), Nat.sub_self]
      rfl
    · rw [if_neg (by omega), overlay_outside, valueIn, if_pos lowPoint]
      rw [List.length_singleton]
      omega

theorem upperEq (laid : Overlaid lower content start values before after) :
    upper lower content after = upper lower content before := by
  rw [upper, upper, laid.lowerEq, laid.lengthEq]

theorem isSome_iff (laid : Overlaid lower content start values before after) :
    (valueIn lower content after address).isSome ↔
      (valueIn lower content before address).isSome := by
  rw [valueIn_isSome, valueIn_isSome, laid.lowerEq, laid.upperEq]

theorem trans (laidFirst : Overlaid lower content start first before middle)
    (laidSecond : Overlaid lower content (start + first.length) second middle
      after) :
    Overlaid lower content start (first ++ second) before after where
  lowerEq := laidSecond.lowerEq.trans laidFirst.lowerEq
  lengthEq := laidSecond.lengthEq.trans laidFirst.lengthEq
  held := by
    intro address present
    rw [laidSecond.held address (laidFirst.isSome_iff.mpr present),
      ← overlay_append]
    unfold overlay
    split
    · rfl
    · exact laidFirst.held address present

end Overlaid

/-- The memory of parts that were laid over is the one laid over. -/
theorem lookup_overlaid
    (laid : List.Forall₂ (Overlaid lower content start values) parts others)
    (present : (lookup lower content parts address).isSome) :
    lookup lower content others address =
      overlay start values (lookup lower content parts) address := by
  induction laid with
  | nil => contradiction
  | @cons before after parts others here rest induction =>
      cases inside : valueIn lower content before address with
      | some value =>
          have isHere : (valueIn lower content before address).isSome := by
            rw [inside]
            rfl
          obtain ⟨low, high⟩ := valueIn_isSome.mp isHere
          rw [lookup_cons_within (by rw [here.lowerEq]; exact low)
            (by rw [here.upperEq]; exact high), here.held address isHere]
          unfold overlay
          rw [lookup_cons_within low high]
      | none =>
          have isOutside : address < lower before ∨
              upper lower content before ≤ address := by
            have absent : ¬ (valueIn lower content before address).isSome := by
              rw [inside]
              exact nofun
            rw [valueIn_isSome] at absent
            omega
          rw [lookup_cons_outside isOutside] at present
          rw [lookup_cons_outside
            (by rw [here.lowerEq, here.upperEq]; exact isOutside),
            induction present]
          unfold overlay
          rw [lookup_cons_outside isOutside]

end Overlays

end LibVmi.Data.Sparse
