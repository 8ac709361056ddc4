import LibVmi.Data.Unicode
import Mathlib.Data.List.Forall2
import Mathlib.Data.List.Infix

namespace LibVmi.Data

/-! UTF-8 as the encodings of characters, and what a lossy reading makes of bytes
that are not UTF-8. -/

def InRange (range : UInt8 × UInt8) (byte : UInt8) : Prop :=
  range.1 ≤ byte ∧ byte ≤ range.2

theorem inRange_toNat {low high byte : UInt8} :
    InRange (low, high) byte ↔
      low.toNat ≤ byte.toNat ∧ byte.toNat ≤ high.toNat := by
  rw [InRange, UInt8.le_iff_toNat_le, UInt8.le_iff_toNat_le]

theorem inRange_ofNat {low high : UInt8} {value : Nat}
    (least : low.toNat ≤ value) (most : value ≤ high.toNat) :
    InRange (low, high) (UInt8.ofNat value) := by
  have bound := high.toNat_lt
  rw [inRange_toNat, UInt8.toNat_ofNat_of_lt' (by change _ < 2 ^ 8; omega)]
  exact ⟨least, most⟩

theorem inRange_tail (value : Nat) :
    InRange (0x80, 0xbf) (UInt8.ofNat (value % 64 + 0x80)) := by
  apply inRange_ofNat
  · exact Nat.le_add_left _ _
  · change _ ≤ 0xbf
    omega

theorem followRanges_eq_some {first : UInt8} {ranges : List (UInt8 × UInt8)} :
    followRanges first = some ranges ↔
      (first.toNat < 0x80 ∧ ranges = []) ∨
      (0xc2 ≤ first.toNat ∧ first.toNat < 0xe0 ∧ ranges = [(0x80, 0xbf)]) ∨
      (first.toNat = 0xe0 ∧ ranges = [(0xa0, 0xbf), (0x80, 0xbf)]) ∨
      (first.toNat = 0xed ∧ ranges = [(0x80, 0x9f), (0x80, 0xbf)]) ∨
      (0xe0 < first.toNat ∧ first.toNat < 0xf0 ∧ first.toNat ≠ 0xed ∧
        ranges = [(0x80, 0xbf), (0x80, 0xbf)]) ∨
      (first.toNat = 0xf0 ∧
        ranges = [(0x90, 0xbf), (0x80, 0xbf), (0x80, 0xbf)]) ∨
      (0xf0 < first.toNat ∧ first.toNat < 0xf4 ∧
        ranges = [(0x80, 0xbf), (0x80, 0xbf), (0x80, 0xbf)]) ∨
      (first.toNat = 0xf4 ∧
        ranges = [(0x80, 0x8f), (0x80, 0xbf), (0x80, 0xbf)]) := by
  have same (byte : UInt8) : first = byte ↔ first.toNat = byte.toNat :=
    UInt8.toNat_inj.symm
  simp only [followRanges, UInt8.lt_iff_toNat_lt, same, UInt8.reduceToNat]
  grind

theorem followRanges_three (value : Nat) (least : 0x7ff < value)
    (most : value ≤ 0xffff) (scalar : value < 0xd800 ∨ 0xdfff < value) :
    ∃ low high : UInt8,
      followRanges (UInt8.ofNat (value / 4096 % 16 + 0xe0)) =
        some [(low, high), (0x80, 0xbf)] ∧
      InRange (low, high) (UInt8.ofNat (value / 64 % 64 + 0x80)) := by
  simp only [followRanges_eq_some, UInt8.toNat_ofNat']
  by_cases lowest : value < 0x1000
  · refine ⟨0xa0, 0xbf, .inr (.inr (.inl ⟨by omega, rfl⟩)), inRange_ofNat ?_ ?_⟩
    · change 0xa0 ≤ _
      omega
    · change _ ≤ 0xbf
      omega
  · by_cases below : 0xd000 ≤ value ∧ value < 0xe000
    · refine ⟨0x80, 0x9f, .inr (.inr (.inr (.inl ⟨by omega, rfl⟩))),
        inRange_ofNat ?_ ?_⟩
      · change 0x80 ≤ _
        omega
      · change _ ≤ 0x9f
        omega
    · exact ⟨0x80, 0xbf, .inr (.inr (.inr (.inr (.inl
        ⟨by omega, by omega, by omega, rfl⟩)))), inRange_tail _⟩

theorem followRanges_four (value : Nat) (least : 0xffff < value)
    (most : value < 0x110000) :
    ∃ low high : UInt8,
      followRanges (UInt8.ofNat (value / 262144 % 8 + 0xf0)) =
        some [(low, high), (0x80, 0xbf), (0x80, 0xbf)] ∧
      InRange (low, high) (UInt8.ofNat (value / 4096 % 64 + 0x80)) := by
  simp only [followRanges_eq_some, UInt8.toNat_ofNat']
  by_cases lowest : value < 0x40000
  · refine ⟨0x90, 0xbf, .inr (.inr (.inr (.inr (.inr (.inl
      ⟨by omega, rfl⟩))))), inRange_ofNat ?_ ?_⟩
    · change 0x90 ≤ _
      omega
    · change _ ≤ 0xbf
      omega
  · by_cases highest : 0x100000 ≤ value
    · refine ⟨0x80, 0x8f, .inr (.inr (.inr (.inr (.inr (.inr (.inr
        ⟨by omega, rfl⟩)))))), inRange_ofNat ?_ ?_⟩
      · change 0x80 ≤ _
        omega
      · change _ ≤ 0x8f
        omega
    · exact ⟨0x80, 0xbf, .inr (.inr (.inr (.inr (.inr (.inr (.inl
        ⟨by omega, by omega, rfl⟩)))))), inRange_tail _⟩

/-- Every encoding keeps to the ranges of its first byte, and is read back. -/
theorem utf8EncodeChar_follows (char : Char) :
    ∃ first ranges rest, String.utf8EncodeChar char = first :: rest ∧
      followRanges first = some ranges ∧
      List.Forall₂ InRange ranges rest ∧ sequenceChar first rest = char := by
  have valid : char.val.toNat < 0xd800 ∨
      0xdfff < char.val.toNat ∧ char.val.toNat < 0x110000 := char.valid
  have restored : Char.ofNat char.val.toNat = char := Char.ofNat_toNat char
  simp only [String.utf8EncodeChar]
  generalize char.val.toNat = value at *
  split
  · refine ⟨_, [], [], rfl, ?_, .nil, ?_⟩
    · rw [followRanges_eq_some, UInt8.toNat_ofNat']
      exact .inl ⟨by omega, rfl⟩
    · refine Eq.trans (congrArg Char.ofNat ?_) restored
      change (UInt8.ofNat value).toNat % 128 = value
      rw [UInt8.toNat_ofNat']
      omega
  split
  · refine ⟨_, [(0x80, 0xbf)], _, rfl, ?_, .cons (inRange_tail _) .nil, ?_⟩
    · rw [followRanges_eq_some, UInt8.toNat_ofNat']
      exact .inr (.inl ⟨by omega, by omega, rfl⟩)
    · refine Eq.trans (congrArg Char.ofNat ?_) restored
      change (UInt8.ofNat _).toNat % 32 * 64 + (UInt8.ofNat _).toNat % 64 = value
      simp only [UInt8.toNat_ofNat']
      omega
  split
  · obtain ⟨low, high, known, second⟩ :=
      followRanges_three value (by omega) (by omega) (by omega)
    refine ⟨_, _, _, rfl, known, .cons second (.cons (inRange_tail _) .nil), ?_⟩
    refine Eq.trans (congrArg Char.ofNat ?_) restored
    change ((UInt8.ofNat _).toNat % 16 * 64 + (UInt8.ofNat _).toNat % 64) * 64 +
      (UInt8.ofNat _).toNat % 64 = value
    simp only [UInt8.toNat_ofNat']
    omega
  · obtain ⟨low, high, known, second⟩ :=
      followRanges_four value (by omega) (by omega)
    refine ⟨_, _, _, rfl, known, .cons second
      (.cons (inRange_tail _) (.cons (inRange_tail _) .nil)), ?_⟩
    refine Eq.trans (congrArg Char.ofNat ?_) restored
    change (((UInt8.ofNat _).toNat % 8 * 64 + (UInt8.ofNat _).toNat % 64) * 64 +
      (UInt8.ofNat _).toNat % 64) * 64 + (UInt8.ofNat _).toNat % 64 = value
    simp only [UInt8.toNat_ofNat']
    omega

theorem toNat_ofNat_scalar {value : Nat}
    (scalar : value < 0xd800 ∨ 0xdfff < value ∧ value < 0x110000) :
    (Char.ofNat value).val.toNat = value := by
  have valid : value.isValidChar := scalar
  rw [Char.ofNat, dif_pos valid]
  rfl

theorem utf8EncodeChar_two {first second : UInt8}
    (lead : 0xc2 ≤ first.toNat ∧ first.toNat < 0xe0)
    (tail : 0x80 ≤ second.toNat ∧ second.toNat ≤ 0xbf) :
    String.utf8EncodeChar (sequenceChar first [second]) = [first, second] := by
  change String.utf8EncodeChar
    (Char.ofNat (first.toNat % 32 * 64 + second.toNat % 64)) = _
  simp only [String.utf8EncodeChar]
  rw [toNat_ofNat_scalar (by omega), if_neg (by omega), if_pos (by omega)]
  simp only [List.cons.injEq, ← UInt8.toNat_inj, UInt8.toNat_ofNat', and_true]
  omega

theorem utf8EncodeChar_three {first second third : UInt8}
    (lead : 0xe0 ≤ first.toNat ∧ first.toNat < 0xf0)
    (middle : 0x80 ≤ second.toNat ∧ second.toNat ≤ 0xbf)
    (tail : 0x80 ≤ third.toNat ∧ third.toNat ≤ 0xbf)
    (shortest : first.toNat = 0xe0 → 0xa0 ≤ second.toNat)
    (scalar : first.toNat = 0xed → second.toNat ≤ 0x9f) :
    String.utf8EncodeChar (sequenceChar first [second, third]) =
      [first, second, third] := by
  change String.utf8EncodeChar (Char.ofNat
    ((first.toNat % 16 * 64 + second.toNat % 64) * 64 + third.toNat % 64)) = _
  simp only [String.utf8EncodeChar]
  rw [toNat_ofNat_scalar (by omega), if_neg (by omega), if_neg (by omega),
    if_pos (by omega)]
  simp only [List.cons.injEq, ← UInt8.toNat_inj, UInt8.toNat_ofNat', and_true]
  omega

theorem utf8EncodeChar_four {first second third fourth : UInt8}
    (lead : 0xf0 ≤ first.toNat ∧ first.toNat ≤ 0xf4)
    (middle : 0x80 ≤ second.toNat ∧ second.toNat ≤ 0xbf)
    (next : 0x80 ≤ third.toNat ∧ third.toNat ≤ 0xbf)
    (tail : 0x80 ≤ fourth.toNat ∧ fourth.toNat ≤ 0xbf)
    (shortest : first.toNat = 0xf0 → 0x90 ≤ second.toNat)
    (scalar : first.toNat = 0xf4 → second.toNat ≤ 0x8f) :
    String.utf8EncodeChar (sequenceChar first [second, third, fourth]) =
      [first, second, third, fourth] := by
  change String.utf8EncodeChar (Char.ofNat
    (((first.toNat % 8 * 64 + second.toNat % 64) * 64 + third.toNat % 64) * 64 +
      fourth.toNat % 64)) = _
  simp only [String.utf8EncodeChar]
  rw [toNat_ofNat_scalar (by omega), if_neg (by omega), if_neg (by omega),
    if_neg (by omega)]
  simp only [List.cons.injEq, ← UInt8.toNat_inj, UInt8.toNat_ofNat', and_true]
  omega

/-- Bytes that keep to the ranges are the encoding of the character that is read
from them. -/
theorem utf8EncodeChar_sequenceChar {first : UInt8}
    {ranges : List (UInt8 × UInt8)} {rest : List UInt8}
    (known : followRanges first = some ranges)
    (follow : List.Forall₂ InRange ranges rest) :
    String.utf8EncodeChar (sequenceChar first rest) = first :: rest := by
  rcases followRanges_eq_some.mp known with ⟨low, rfl⟩ | ⟨least, most, rfl⟩ |
    ⟨lead, rfl⟩ | ⟨lead, rfl⟩ | ⟨least, most, scalar, rfl⟩ | ⟨lead, rfl⟩ |
    ⟨least, most, rfl⟩ | ⟨lead, rfl⟩ <;>
    simp only [List.forall₂_cons_left_iff, List.forall₂_nil_left_iff,
      inRange_toNat, UInt8.reduceToNat] at follow
  · subst rest
    change String.utf8EncodeChar (Char.ofNat (first.toNat % 128)) = _
    simp only [String.utf8EncodeChar]
    rw [toNat_ofNat_scalar (by omega), if_pos (by omega),
      Nat.mod_eq_of_lt low, UInt8.ofNat_toNat]
  · obtain ⟨second, _, tail, rfl, rfl⟩ := follow
    exact utf8EncodeChar_two ⟨least, most⟩ tail
  · obtain ⟨second, _, middle, ⟨third, _, tail, rfl, rfl⟩, rfl⟩ := follow
    exact utf8EncodeChar_three (by omega) (by omega) tail (by omega) (by omega)
  · obtain ⟨second, _, middle, ⟨third, _, tail, rfl, rfl⟩, rfl⟩ := follow
    exact utf8EncodeChar_three (by omega) (by omega) tail (by omega) (by omega)
  · obtain ⟨second, _, middle, ⟨third, _, tail, rfl, rfl⟩, rfl⟩ := follow
    exact utf8EncodeChar_three (by omega) (by omega) tail (by omega) (by omega)
  · obtain ⟨second, _, middle, ⟨third, _, next, ⟨fourth, _, tail, rfl, rfl⟩,
      rfl⟩, rfl⟩ := follow
    exact utf8EncodeChar_four (by omega) (by omega) next tail (by omega)
      (by omega)
  · obtain ⟨second, _, middle, ⟨third, _, next, ⟨fourth, _, tail, rfl, rfl⟩,
      rfl⟩, rfl⟩ := follow
    exact utf8EncodeChar_four (by omega) (by omega) next tail (by omega)
      (by omega)
  · obtain ⟨second, _, middle, ⟨third, _, next, ⟨fourth, _, tail, rfl, rfl⟩,
      rfl⟩, rfl⟩ := follow
    exact utf8EncodeChar_four (by omega) (by omega) next tail (by omega)
      (by omega)

/-! What a lossy reading replaces: where no encoding begins the bytes, the
longest of their beginnings that begins an encoding, or else the first byte. -/

structure MaximalSubpart (subpart rest : List UInt8) : Prop where
  unconvertible : ∀ char, ¬ String.utf8EncodeChar char <+: subpart ++ rest
  begins : subpart.length = 1 ∨
    subpart ≠ [] ∧ ∃ char, subpart <+: String.utf8EncodeChar char
  longest : ∀ longer char, longer <+: subpart ++ rest →
    longer <+: String.utf8EncodeChar char → longer.length ≤ subpart.length

inductive LossyUtf8 : List UInt8 → List Char → Prop
  | done : LossyUtf8 [] []
  | keep (char : Char) {bytes : List UInt8} {chars : List Char}
      (rest : LossyUtf8 bytes chars) :
      LossyUtf8 (String.utf8EncodeChar char ++ bytes) (char :: chars)
  | replace {subpart bytes : List UInt8} {chars : List Char}
      (illFormed : MaximalSubpart subpart bytes)
      (rest : LossyUtf8 bytes chars) :
      LossyUtf8 (subpart ++ bytes) ('\uFFFD' :: chars)

theorem MaximalSubpart.positive {subpart rest : List UInt8}
    (maximal : MaximalSubpart subpart rest) : 0 < subpart.length := by
  rcases maximal.begins with single | ⟨nonempty, _⟩
  · rw [single]
    exact Nat.one_pos
  · exact List.length_pos_of_ne_nil nonempty

theorem MaximalSubpart.le_of_append {subpart rest other bytes : List UInt8}
    (maximal : MaximalSubpart subpart rest) (bad : MaximalSubpart other bytes)
    (whole : other ++ bytes = subpart ++ rest) :
    other.length ≤ subpart.length := by
  rcases bad.begins with single | ⟨_, char, begins⟩
  · rw [single]
    exact maximal.positive
  · exact maximal.longest other char ⟨bytes, whole⟩ begins

/-- An encoding has the ranges that its first byte has. -/
theorem utf8EncodeChar_cons {char : Char} {first : UInt8}
    {ranges : List (UInt8 × UInt8)} {rest : List UInt8}
    (known : followRanges first = some ranges)
    (encoded : String.utf8EncodeChar char = first :: rest) :
    List.Forall₂ InRange ranges rest ∧ sequenceChar first rest = char := by
  obtain ⟨lead, others, tail, spelled, leads, follow, restored⟩ :=
    utf8EncodeChar_follows char
  obtain ⟨rfl, rfl⟩ := List.cons.inj (encoded.symm.trans spelled)
  obtain rfl := Option.some.inj (known.symm.trans leads)
  exact ⟨follow, restored⟩

/-- No encoding begins another. -/
theorem utf8EncodeChar_append_inj {left right : Char}
    {bytes others : List UInt8}
    (same : String.utf8EncodeChar left ++ bytes =
      String.utf8EncodeChar right ++ others) :
    left = right ∧ bytes = others := by
  obtain ⟨first, ranges, rest, spelled, known, follow, restored⟩ :=
    utf8EncodeChar_follows left
  obtain ⟨lead, _, tail, spells, _, _, _⟩ := utf8EncodeChar_follows right
  rw [spelled, spells, List.cons_append, List.cons_append, List.cons.injEq]
    at same
  obtain ⟨rfl, same⟩ := same
  obtain ⟨followed, restores⟩ := utf8EncodeChar_cons known spells
  obtain ⟨rfl, rfl⟩ := List.append_inj same
    (follow.length_eq.symm.trans followed.length_eq)
  exact ⟨restored.symm.trans restores, rfl⟩

/-- There is only one lossy reading. -/
theorem LossyUtf8.unique {bytes : List UInt8} {chars others : List Char}
    (left : LossyUtf8 bytes chars) (right : LossyUtf8 bytes others) :
    chars = others := by
  induction left generalizing others with
  | done =>
      generalize empty : ([] : List UInt8) = bytes at right
      cases right with
      | done => rfl
      | keep char rest =>
          obtain ⟨_, _, _, spelled, _⟩ := utf8EncodeChar_follows char
          rw [spelled] at empty
          contradiction
      | replace illFormed rest =>
          have positive := illFormed.positive
          rw [(List.append_eq_nil_iff.mp empty.symm).1] at positive
          contradiction
  | @keep char bytes chars rest induction =>
      generalize whole : String.utf8EncodeChar char ++ bytes = read at right
      cases right with
      | done =>
          obtain ⟨_, _, _, spelled, _⟩ := utf8EncodeChar_follows char
          rw [spelled] at whole
          contradiction
      | keep other rest =>
          obtain ⟨rfl, rfl⟩ := utf8EncodeChar_append_inj whole
          rw [induction rest]
      | replace illFormed rest =>
          exact absurd ⟨bytes, whole⟩ (illFormed.unconvertible char)
  | @replace subpart bytes chars illFormed rest induction =>
      generalize whole : subpart ++ bytes = read at right
      cases right with
      | done =>
          have positive := illFormed.positive
          rw [(List.append_eq_nil_iff.mp whole).1] at positive
          contradiction
      | keep other rest =>
          exact absurd ⟨_, whole.symm⟩ (illFormed.unconvertible other)
      | @replace other read others bad rest =>
          have lengths : subpart.length = other.length :=
            Nat.le_antisymm (bad.le_of_append illFormed whole)
              (illFormed.le_of_append bad whole.symm)
          obtain ⟨rfl, rfl⟩ := List.append_inj whole lengths
          rw [induction rest]

/-! The check of the standard library, by the encodings of characters. -/

theorem followsRanges_append {ranges : List (UInt8 × UInt8)}
    {tail : List UInt8} (follow : List.Forall₂ InRange ranges tail)
    (taken : Nat) (rest : List UInt8) :
    followsRanges ranges taken (tail ++ rest) = .ok () := by
  induction follow generalizing taken with
  | nil => rfl
  | cons within _ induction =>
      rw [List.cons_append, followsRanges]
      exact (if_pos within).trans (induction (taken + 1))

theorem followsRanges_ok {ranges : List (UInt8 × UInt8)} {taken : Nat}
    {bytes : List UInt8} (followed : followsRanges ranges taken bytes = .ok ()) :
    List.Forall₂ InRange ranges (bytes.take ranges.length) := by
  induction ranges generalizing taken bytes with
  | nil => exact .nil
  | cons range ranges induction =>
      cases bytes with
      | nil => cases followed
      | cons byte rest =>
          rw [followsRanges] at followed
          split at followed
          · rename_i within
            exact .cons within (induction followed)
          · contradiction

/-- The check stops before the first byte out of its range, or at the end. -/
theorem followsRanges_stops {ranges : List (UInt8 × UInt8)} {taken : Nat}
    {bytes : List UInt8} {length : Option Nat}
    (failed : followsRanges ranges taken bytes = .error length) :
    ∃ before range after kept rest, ranges = before ++ range :: after ∧
      bytes = kept ++ rest ∧ List.Forall₂ InRange before kept ∧
      (∀ byte ∈ rest.head?, ¬ InRange range byte) ∧
      length = rest.head?.map fun _ => taken + kept.length := by
  induction ranges generalizing taken bytes with
  | nil => cases failed
  | cons range ranges induction =>
      cases bytes with
      | nil =>
          cases failed
          exact ⟨[], range, ranges, [], [], rfl, rfl, .nil, by simp, rfl⟩
      | cons byte rest =>
          rw [followsRanges] at failed
          split at failed
          · rename_i within
            obtain ⟨before, next, after, kept, others, rfl, rfl, follow, stops,
              counted⟩ := induction failed
            refine ⟨range :: before, next, after, byte :: kept, others, rfl,
              rfl, .cons within follow, stops, ?_⟩
            rw [counted, List.length_cons, Nat.add_right_comm, Nat.add_assoc]
          · rename_i outside
            cases failed
            refine ⟨[], range, ranges, [], byte :: rest, rfl, rfl, .nil, ?_, rfl⟩
            intro other member
            rwa [← Option.some.inj member]

theorem followRanges_nonempty {first : UInt8} {ranges : List (UInt8 × UInt8)}
    (known : followRanges first = some ranges) :
    ∀ range ∈ ranges, InRange range range.1 := by
  rcases followRanges_eq_some.mp known with ⟨_, rfl⟩ | ⟨_, _, rfl⟩ |
    ⟨_, rfl⟩ | ⟨_, rfl⟩ | ⟨_, _, _, rfl⟩ | ⟨_, rfl⟩ | ⟨_, _, rfl⟩ |
    ⟨_, rfl⟩ <;>
    simp [InRange]

/-- Bytes that keep to the first ranges begin an encoding. -/
theorem begins_utf8EncodeChar {first : UInt8}
    {before after : List (UInt8 × UInt8)} {kept : List UInt8}
    (known : followRanges first = some (before ++ after))
    (follow : List.Forall₂ InRange before kept) :
    ∃ char, first :: kept <+: String.utf8EncodeChar char := by
  have lowest : List.Forall₂ InRange after (after.map Prod.fst) := by
    rw [List.forall₂_map_right_iff, List.forall₂_same]
    intro range member
    exact followRanges_nonempty known range (List.mem_append_right _ member)
  have whole : List.Forall₂ InRange (before ++ after)
      (kept ++ after.map Prod.fst) := List.rel_append follow lowest
  exact ⟨sequenceChar first (kept ++ after.map Prod.fst), after.map Prod.fst,
    (utf8EncodeChar_sequenceChar known whole).symm⟩

/-- A beginning of an encoding goes no further than the check does. -/
theorem prefix_le_of_stops {first : UInt8}
    {before after : List (UInt8 × UInt8)} {range : UInt8 × UInt8}
    {kept rest longer : List UInt8} {char : Char}
    (known : followRanges first = some (before ++ range :: after))
    (follow : List.Forall₂ InRange before kept)
    (stops : ∀ byte ∈ rest.head?, ¬ InRange range byte)
    (ofBytes : longer <+: first :: kept ++ rest)
    (ofChar : longer <+: String.utf8EncodeChar char) :
    longer.length ≤ (first :: kept).length := by
  obtain ⟨lead, _, tail, spelled, _, _, _⟩ := utf8EncodeChar_follows char
  rw [spelled] at ofChar
  cases longer with
  | nil => exact Nat.zero_le _
  | cons head others =>
      rw [List.cons_append, List.cons_prefix_cons] at ofBytes
      rw [List.cons_prefix_cons] at ofChar
      obtain ⟨rfl, ofBytes⟩ := ofBytes
      obtain ⟨rfl, ofChar⟩ := ofChar
      apply Nat.succ_le_succ
      by_contra further
      -- The byte after those kept would be in its range and out of it.
      have ranged := List.forall₂_drop kept.length
        (utf8EncodeChar_cons known spelled).1
      rw [List.drop_left' follow.length_eq] at ranged
      have inTail := ofChar.drop kept.length
      have inBytes := ofBytes.drop kept.length
      rw [List.drop_left] at inBytes
      cases beyond : others.drop kept.length with
      | nil =>
          rw [List.drop_eq_nil_iff] at beyond
          exact further beyond
      | cons byte more =>
          rw [beyond] at inTail inBytes
          obtain ⟨_, tailEq⟩ := inTail
          obtain ⟨_, restEq⟩ := inBytes
          rw [← tailEq] at ranged
          cases ranged with
          | cons within _ =>
              exact stops byte (by rw [← restEq]; rfl) within

theorem maximalSubpart_of_stops {first : UInt8}
    {before after : List (UInt8 × UInt8)} {range : UInt8 × UInt8}
    {kept rest : List UInt8}
    (known : followRanges first = some (before ++ range :: after))
    (follow : List.Forall₂ InRange before kept)
    (stops : ∀ byte ∈ rest.head?, ¬ InRange range byte) :
    MaximalSubpart (first :: kept) rest where
  unconvertible := by
    intro char encoding
    have short := prefix_le_of_stops known follow stops encoding
      (List.prefix_refl _)
    obtain ⟨lead, _, tail, spelled, _, _, _⟩ := utf8EncodeChar_follows char
    rw [spelled, List.cons_append, List.cons_prefix_cons] at encoding
    obtain ⟨rfl, _⟩ := encoding
    have lengths := (utf8EncodeChar_cons known spelled).1.length_eq
    rw [spelled, List.length_cons, List.length_cons, ← lengths,
      List.length_append, List.length_cons, follow.length_eq] at short
    omega
  begins := .inr ⟨List.cons_ne_nil _ _, begins_utf8EncodeChar known follow⟩
  longest := fun _ _ ofBytes ofChar =>
    prefix_le_of_stops known follow stops ofBytes ofChar

theorem maximalSubpart_of_unknown {first : UInt8}
    (unknown : followRanges first = none) (rest : List UInt8) :
    MaximalSubpart [first] rest where
  unconvertible := by
    intro char encoding
    obtain ⟨lead, ranges, tail, spelled, known, _, _⟩ :=
      utf8EncodeChar_follows char
    rw [spelled, List.singleton_append, List.cons_prefix_cons] at encoding
    rw [encoding.1, unknown] at known
    contradiction
  begins := .inl rfl
  longest := by
    intro longer char ofBytes ofChar
    obtain ⟨lead, ranges, tail, spelled, known, _, _⟩ :=
      utf8EncodeChar_follows char
    cases longer with
    | nil => exact Nat.zero_le _
    | cons head others =>
        rw [List.singleton_append, List.cons_prefix_cons] at ofBytes
        rw [spelled, List.cons_prefix_cons] at ofChar
        rw [← ofChar.1, ofBytes.1, unknown] at known
        contradiction

/-! The lossy reading in one pass. -/

def lossyChars : List UInt8 → List Char
  | [] => []
  | first :: rest =>
      match followRanges first with
      | none => '\uFFFD' :: lossyChars rest
      | some ranges =>
          match followsRanges ranges 1 rest with
          | .ok _ =>
              sequenceChar first (rest.take ranges.length) ::
                lossyChars (rest.drop ranges.length)
          | .error none => ['\uFFFD']
          | .error (some length) =>
              '\uFFFD' :: lossyChars (rest.drop (length - 1))
termination_by bytes => bytes.length
decreasing_by
  all_goals simp only [List.length_drop, List.length_cons]; omega

def fromUtf8Lossy (bytes : List UInt8) : String :=
  String.ofList (lossyChars bytes)

theorem lossyChars_lossy (bytes : List UInt8) :
    LossyUtf8 bytes (lossyChars bytes) := by
  induction bytes using lossyChars.induct with
  | case1 =>
      rw [lossyChars]
      exact .done
  | case2 first rest unknown induction =>
      rw [lossyChars, unknown]
      exact .replace (maximalSubpart_of_unknown unknown rest) induction
  | case3 first rest ranges known done followed induction =>
      rw [lossyChars, known]
      simp only [followed]
      have follow := followsRanges_ok followed
      have spelled := utf8EncodeChar_sequenceChar known follow
      have kept := LossyUtf8.keep (sequenceChar first (rest.take ranges.length))
        induction
      rwa [spelled, List.cons_append, List.take_append_drop] at kept
  | case4 first rest ranges known followed =>
      rw [lossyChars, known]
      simp only [followed]
      obtain ⟨before, range, after, kept, others, rfl, rfl, follow, stops,
        counted⟩ := followsRanges_stops followed
      rw [eq_comm, Option.map_eq_none_iff, List.head?_eq_none_iff] at counted
      subst others
      exact .replace (maximalSubpart_of_stops known follow stops) .done
  | case5 first rest ranges known length followed induction =>
      rw [lossyChars, known]
      simp only [followed]
      obtain ⟨before, range, after, kept, others, rfl, rfl, follow, stops,
        counted⟩ := followsRanges_stops followed
      obtain ⟨byte, _, lengthEq⟩ := Option.map_eq_some_iff.mp counted.symm
      rw [← lengthEq, Nat.add_sub_cancel_left, List.drop_left] at induction ⊢
      exact .replace (maximalSubpart_of_stops known follow stops) induction

theorem lossyChars_eq {bytes : List UInt8} {chars : List Char}
    (lossy : LossyUtf8 bytes chars) : lossyChars bytes = chars :=
  (lossyChars_lossy bytes).unique lossy

theorem LossyUtf8.append (chars : List Char) {others : List Char}
    {bytes : List UInt8} (rest : LossyUtf8 bytes others) :
    LossyUtf8 (chars.flatMap String.utf8EncodeChar ++ bytes)
      (chars ++ others) := by
  induction chars with
  | nil => exact rest
  | cons char chars induction =>
      rw [List.flatMap_cons, List.append_assoc]
      exact .keep char induction

/-- What is well formed is kept as it is. -/
theorem LossyUtf8.kept (chars : List Char) :
    LossyUtf8 (chars.flatMap String.utf8EncodeChar) chars := by
  have kept := LossyUtf8.append chars .done
  rwa [List.append_nil, List.append_nil] at kept

/-- A replacement takes three bytes, for one byte at least. -/
theorem LossyUtf8.size_le {bytes : List UInt8} {chars : List Char}
    (lossy : LossyUtf8 bytes chars) :
    (chars.flatMap String.utf8EncodeChar).length ≤ 3 * bytes.length := by
  induction lossy with
  | done => exact Nat.zero_le _
  | keep char rest induction =>
      rw [List.flatMap_cons, List.length_append, List.length_append]
      omega
  | replace illFormed rest induction =>
      have positive := illFormed.positive
      have three : (String.utf8EncodeChar '\uFFFD').length = 3 := by decide
      rw [List.flatMap_cons, List.length_append, List.length_append, three]
      omega

theorem utf8Chars_ok {position : Nat} {bytes : List UInt8} {chars : List Char}
    (decoded : utf8Chars position bytes = .ok chars) :
    bytes = chars.flatMap String.utf8EncodeChar := by
  induction position, bytes using utf8Chars.induct generalizing chars with
  | case1 position =>
      rw [utf8Chars] at decoded
      cases decoded
      rfl
  | case2 position first rest unknown =>
      rw [utf8Chars, unknown] at decoded
      contradiction
  | case3 position first rest ranges known length stopped =>
      rw [utf8Chars, known] at decoded
      simp only [stopped] at decoded
      contradiction
  | case4 position first rest ranges known done followed induction =>
      rw [utf8Chars, known] at decoded
      simp only [followed] at decoded
      obtain ⟨others, later, decoded⟩ := bind_eq_ok.mp decoded
      cases decoded
      rw [List.flatMap_cons, ← induction later,
        utf8EncodeChar_sequenceChar known (followsRanges_ok followed),
        List.cons_append, List.take_append_drop]

theorem utf8Chars_encode (chars : List Char) (position : Nat) :
    utf8Chars position (chars.flatMap String.utf8EncodeChar) = .ok chars := by
  induction chars generalizing position with
  | nil => rw [List.flatMap_nil, utf8Chars]
  | cons char chars induction =>
      obtain ⟨first, ranges, rest, spelled, known, follow, restored⟩ :=
        utf8EncodeChar_follows char
      rw [List.flatMap_cons, spelled, List.cons_append, utf8Chars, known]
      simp only [followsRanges_append follow]
      rw [List.drop_left' follow.length_eq.symm, induction,
        List.take_left' follow.length_eq.symm, restored]
      rfl

/-- Where the check fails, the bytes before are well formed, and a maximal
subpart stands there. Its length is given unless it ends the bytes. -/
theorem utf8Chars_stops {position : Nat} {bytes : List UInt8}
    {error : Utf8Error} (failed : utf8Chars position bytes = .error error) :
    ∃ (chars : List Char) (subpart rest : List UInt8),
      bytes = chars.flatMap String.utf8EncodeChar ++ (subpart ++ rest) ∧
      MaximalSubpart subpart rest ∧
      error.validUpTo =
        position + (chars.flatMap String.utf8EncodeChar).length ∧
      (error.errorLen = some subpart.length ∨
        error.errorLen = none ∧ rest = []) := by
  induction position, bytes using utf8Chars.induct with
  | case1 position =>
      rw [utf8Chars] at failed
      contradiction
  | case2 position first rest unknown =>
      rw [utf8Chars, unknown] at failed
      cases failed
      exact ⟨[], [first], rest, rfl, maximalSubpart_of_unknown unknown rest,
        rfl, .inl rfl⟩
  | case3 position first rest ranges known length stopped =>
      rw [utf8Chars, known] at failed
      simp only [stopped] at failed
      cases failed
      obtain ⟨before, range, after, kept, others, rfl, rfl, follow, stops,
        counted⟩ := followsRanges_stops stopped
      refine ⟨[], first :: kept, others, rfl,
        maximalSubpart_of_stops known follow stops, rfl, ?_⟩
      cases others with
      | nil => exact .inr ⟨counted, rfl⟩
      | cons byte others =>
          rw [List.length_cons, Nat.add_comm]
          exact .inl counted
  | case4 position first rest ranges known done followed induction =>
      rw [utf8Chars, known] at failed
      simp only [followed] at failed
      rcases bind_eq_error.mp failed with later | ⟨_, _, impossible⟩
      · obtain ⟨chars, subpart, others, splits, illFormed, upTo, measured⟩ :=
          induction later
        have follow := followsRanges_ok followed
        have spelled := utf8EncodeChar_sequenceChar known follow
        refine ⟨sequenceChar first (rest.take ranges.length) :: chars, subpart,
          others, ?_, illFormed, ?_, measured⟩
        · rw [List.flatMap_cons, List.append_assoc, ← splits, spelled,
            List.cons_append, List.take_append_drop]
        · rw [List.flatMap_cons, List.length_append, spelled, List.length_cons,
            ← follow.length_eq, upTo, Nat.add_assoc]
      · contradiction

/-- Different texts have different bytes. -/
theorem encode_injective {left right : List Char}
    (same : left.flatMap String.utf8EncodeChar =
      right.flatMap String.utf8EncodeChar) : left = right := by
  have decoded := utf8Chars_encode left 0
  rw [same, utf8Chars_encode] at decoded
  exact (Except.ok.inj decoded).symm

theorem utf8EncodeChar_ascii {char : Char} (ascii : char.toNat < 0x80) :
    String.utf8EncodeChar char = [UInt8.ofNat char.toNat] :=
  if_pos (Nat.le_of_lt_succ ascii)

theorem encode_ascii {chars : List Char}
    (ascii : ∀ char ∈ chars, char.toNat < 0x80) :
    chars.flatMap String.utf8EncodeChar =
      chars.map fun char => UInt8.ofNat char.toNat := by
  induction chars with
  | nil => rfl
  | cons char chars induction =>
      rw [List.forall_mem_cons] at ascii
      rw [List.flatMap_cons, utf8EncodeChar_ascii ascii.1, induction ascii.2]
      rfl

/-- Bytes below 0x80 only spell characters below it. -/
theorem ascii_of_encode {chars : List Char}
    (ascii : ∀ byte ∈ chars.flatMap String.utf8EncodeChar, byte.toNat < 0x80) :
    ∀ char ∈ chars, char.toNat < 0x80 := by
  intro char member
  obtain ⟨first, ranges, rest, spelled, known, follow, restored⟩ :=
    utf8EncodeChar_follows char
  have low := ascii first (List.mem_flatMap.mpr
    ⟨char, member, by rw [spelled]; exact List.mem_cons_self⟩)
  have alone : ranges = [] := by
    rcases followRanges_eq_some.mp known with ⟨_, alone⟩ | high
    · exact alone
    · omega
  subst alone
  cases follow
  rw [← restored]
  change (Char.ofNat (first.toNat % 128)).val.toNat < 0x80
  rw [toNat_ofNat_scalar (by omega)]
  exact Nat.mod_lt _ (by decide)

end LibVmi.Data
