import LibVmi.Artifact.Manifest
import LibVmi.Data.Numerals
import LibVmi.Profile.Formats

namespace LibVmi.Profile

open Data Artifact

/-! Which numeric texts the three readers accept. Each is the standard parser
behind some stripping of `0x`. -/

/-- One `0x` at most and the hexadecimal digits of a value. -/
def StrictAddress (text : List Char) (value : UInt64) : Prop :=
  Denotes 16 text value ∨
    ∃ digits, text = '0' :: 'x' :: digits ∧ Denotes 16 digits value

/-- Decimal digits, or `0x` and hexadecimal digits. -/
def StrictNumber (text : List Char) (value : UInt64) : Prop :=
  Denotes 10 text value ∨
    ∃ digits, text = '0' :: 'x' :: digits ∧ Denotes 16 digits value

/-- Digits of a value behind several `0x`, or behind a plus. -/
def LooseAddress (text : List Char) (value : UInt64) : Prop :=
  ∃ count digits, Denotes 16 digits value ∧
    (text = (List.replicate count ['0', 'x']).flatten ++ '+' :: digits ∨
      2 ≤ count ∧ text = (List.replicate count ['0', 'x']).flatten ++ digits)

/-- Digits of a value behind a plus. -/
def LooseNumber (text : List Char) (value : UInt64) : Prop :=
  ∃ digits, text = '+' :: digits ∧ Denotes 10 digits value ∨
    text = '0' :: 'x' :: '+' :: digits ∧ Denotes 16 digits value

theorem digitOf_x {radix : Nat} (bound : radix ≤ 33) :
    digitOf radix 'x' = none :=
  if_neg (by show ¬ 33 < radix; omega)

/-- No numeral starts with `0x`. -/
theorem not_denotes_hex {radix : Nat} (bound : radix ≤ 33)
    {digits : List Char} {value : UInt64} :
    ¬ Denotes radix ('0' :: 'x' :: digits) value := by
  intro denotes
  have accepted := denotes.digits_only 'x' (by simp)
  rw [digitOf_x bound] at accepted
  cases accepted

theorem trimStartHex_replicate (count : Nat) {text : List Char}
    (stripped : ∀ rest, text ≠ '0' :: 'x' :: rest) :
    trimStartHex ((List.replicate count ['0', 'x']).flatten ++ text) =
      text := by
  induction count with
  | zero =>
      rw [List.replicate_zero, List.flatten_nil, List.nil_append]
      unfold trimStartHex
      split
      · exact absurd rfl (stripped _)
      · rfl
  | succ count induction =>
      rw [List.replicate_succ, List.flatten_cons]
      exact induction

theorem trimStartHex_spec (text : List Char) :
    ∃ count, text =
      (List.replicate count ['0', 'x']).flatten ++ trimStartHex text := by
  induction text using trimStartHex.induct with
  | case1 rest induction =>
      obtain ⟨count, same⟩ := induction
      refine ⟨count + 1, ?_⟩
      rw [trimStartHex, List.replicate_succ, List.flatten_cons,
        List.append_assoc, ← same]
      rfl
  | case2 text other =>
      refine ⟨0, ?_⟩
      unfold trimStartHex
      split
      · exact absurd rfl (other _)
      · rfl

/-- What denotes a value has no `0x` left to strip. -/
theorem denotes_stripped {radix : Nat} (bound : radix ≤ 33)
    {digits : List Char} {value : UInt64}
    (denotes : Denotes radix digits value) (rest : List Char) :
    digits ≠ '0' :: 'x' :: rest := by
  intro same
  rw [same] at denotes
  exact not_denotes_hex bound denotes

theorem systemMapAddress_eq_ok {text : List Char} {line : Nat}
    {value : UInt64} :
    systemMapAddress text line = .ok value ↔
      StrictAddress text value ∨ LooseAddress text value := by
  rw [systemMapAddress, mapError_eq_ok,
    fromStrRadix_eq_ok (by decide) (by decide)]
  constructor
  · intro accepted
    obtain ⟨count, same⟩ := trimStartHex_spec text
    obtain denotes | ⟨digits, signed, denotes⟩ := accepted
    · match count, same with
      | 0, same =>
          rw [List.replicate_zero, List.flatten_nil, List.nil_append] at same
          rw [← same] at denotes
          exact .inl (.inl denotes)
      | 1, same => exact .inl (.inr ⟨_, same, denotes⟩)
      | count + 2, same =>
          exact .inr ⟨count + 2, _, denotes, .inr ⟨by omega, same⟩⟩
    · rw [signed] at same
      exact .inr ⟨count, digits, denotes, .inl same⟩
  · have strip : ∀ count digits, Denotes 16 digits value →
        trimStartHex ((List.replicate count ['0', 'x']).flatten ++ digits) =
          digits :=
      fun count digits denotes =>
        trimStartHex_replicate count (denotes_stripped (by decide) denotes)
    intro given
    obtain (denotes | ⟨digits, rfl, denotes⟩) |
      ⟨count, digits, denotes, signed | ⟨_, repeated⟩⟩ := given
    · have stripped : trimStartHex text = text := strip 0 text denotes
      rw [stripped]
      exact .inl denotes
    · have stripped : trimStartHex ('0' :: 'x' :: digits) = digits :=
        strip 1 digits denotes
      rw [stripped]
      exact .inl denotes
    · rw [signed, trimStartHex_replicate count (by simp)]
      exact .inr ⟨digits, rfl, denotes⟩
    · rw [repeated, strip count digits denotes]
      exact .inl denotes

/-- The reader of JSON numbers in profiles and in manifests. -/
theorem numberText_eq_ok {text : List Char} {value : UInt64} :
    (match text with
      | '0' :: 'x' :: hex => fromStrRadix 16 hex
      | digits => fromStrRadix 10 digits) = .ok value ↔
      StrictNumber text value ∨ LooseNumber text value := by
  split
  · rename_i hex
    rw [fromStrRadix_eq_ok (by decide) (by decide)]
    constructor
    · intro accepted
      obtain denotes | ⟨digits, rfl, denotes⟩ := accepted
      · exact .inl (.inr ⟨hex, rfl, denotes⟩)
      · exact .inr ⟨digits, .inr ⟨rfl, denotes⟩⟩
    · intro given
      obtain (denotes | ⟨digits, same, denotes⟩) |
        ⟨digits, ⟨same, _⟩ | ⟨same, denotes⟩⟩ := given
      · exact absurd denotes (not_denotes_hex (by decide))
      · cases same
        exact .inl denotes
      · cases same
      · cases same
        exact .inr ⟨digits, rfl, denotes⟩
  · rename_i other
    rw [fromStrRadix_eq_ok (by decide) (by decide)]
    constructor
    · intro accepted
      obtain denotes | ⟨digits, rfl, denotes⟩ := accepted
      · exact .inl (.inl denotes)
      · exact .inr ⟨digits, .inl ⟨rfl, denotes⟩⟩
    · intro given
      obtain (denotes | ⟨digits, same, _⟩) |
        ⟨digits, ⟨same, denotes⟩ | ⟨same, _⟩⟩ := given
      · exact .inl denotes
      · exact absurd same (other _)
      · exact .inr ⟨digits, same, denotes⟩
      · exact absurd same (other _)

theorem profileNumber_eq_ok {text field : String} {value : UInt64} :
    profileNumber (.string text) field = .ok value ↔
      StrictNumber text.toList value ∨ LooseNumber text.toList value := by
  rw [← numberText_eq_ok]
  exact mapError_eq_ok

theorem manifestU64_eq_ok {text field : String} {index : Nat}
    {value : UInt64} :
    manifestU64 (some (.string text)) field index = .ok value ↔
      StrictNumber text.toList value ∨ LooseNumber text.toList value := by
  rw [← numberText_eq_ok]
  exact mapError_eq_ok

theorem StrictAddress.not_loose {text : List Char} {value other : UInt64}
    (strict : StrictAddress text value) : ¬ LooseAddress text other := by
  intro loose
  obtain ⟨count, digits, _, signed | ⟨repeated, same⟩⟩ := loose
  · have plus : '+' ∈ text := by
      rw [signed]
      exact List.mem_append_right _ List.mem_cons_self
    obtain denotes | ⟨rest, rfl, denotes⟩ := strict
    · exact denotes.unsigned plus
    · exact denotes.unsigned (by simpa using plus)
  · obtain ⟨more, rfl⟩ := Nat.exists_eq_add_of_le' repeated
    rw [List.replicate_succ, List.flatten_cons, List.replicate_succ,
      List.flatten_cons] at same
    obtain denotes | ⟨rest, opened, denotes⟩ := strict
    · rw [same] at denotes
      exact not_denotes_hex (by decide) denotes
    · rw [opened] at same
      cases same
      exact not_denotes_hex (by decide) denotes

theorem StrictNumber.not_loose {text : List Char} {value other : UInt64}
    (strict : StrictNumber text value) : ¬ LooseNumber text other := by
  intro loose
  have plus : '+' ∈ text := by
    obtain ⟨digits, ⟨rfl, _⟩ | ⟨rfl, _⟩⟩ := loose <;> simp
  obtain denotes | ⟨rest, rfl, denotes⟩ := strict
  · exact denotes.unsigned plus
  · exact denotes.unsigned (by simpa using plus)

/-- A reader that takes strict and loose texts is strict where no loose text
is given. -/
theorem strict_iff_not_loose {α : Type} {accepts strict loose : α → Prop}
    (split : ∀ value, accepts value ↔ strict value ∨ loose value)
    (apart : ∀ value other, strict value → ¬ loose other) :
    (∀ value, accepts value ↔ strict value) ↔ ¬ ∃ value, loose value := by
  constructor
  · intro only given
    obtain ⟨value, found⟩ := given
    have taken := (only value).mp ((split value).mpr (.inr found))
    exact apart value value taken found
  · intro none value
    rw [split]
    constructor
    · intro given
      exact given.resolve_right fun found => none ⟨value, found⟩
    · exact Or.inl

/-- Each reader is strict about a text exactly where the text is not a numeral
behind a plus or, for addresses, behind more than one `0x`. -/
theorem numeric_text_strict_iff (text : String) (line : Nat) (field : String)
    (index : Nat) :
    ((∀ value, systemMapAddress text.toList line = .ok value ↔
        StrictAddress text.toList value) ↔
      ¬ ∃ value, LooseAddress text.toList value) ∧
    ((∀ value, profileNumber (.string text) field = .ok value ↔
        StrictNumber text.toList value) ↔
      ¬ ∃ value, LooseNumber text.toList value) ∧
    ((∀ value, manifestU64 (some (.string text)) field index = .ok value ↔
        StrictNumber text.toList value) ↔
      ¬ ∃ value, LooseNumber text.toList value) := by
  refine ⟨?_, ?_, ?_⟩
  · exact strict_iff_not_loose (fun _ => systemMapAddress_eq_ok)
      fun _ _ => StrictAddress.not_loose
  · exact strict_iff_not_loose (fun _ => profileNumber_eq_ok)
      fun _ _ => StrictNumber.not_loose
  · exact strict_iff_not_loose (fun _ => manifestU64_eq_ok)
      fun _ _ => StrictNumber.not_loose

/-- A repeated `0x` and a plus are accepted. -/
theorem numeric_text_not_strict :
    (systemMapAddress ['0', 'x', '0', 'x', '1'] 1 = .ok 1 ∧
      ¬ ∃ value, StrictAddress ['0', 'x', '0', 'x', '1'] value) ∧
    (profileNumber (.string "+1") "field" = .ok 1 ∧
      ¬ ∃ value, StrictNumber ['+', '1'] value) ∧
    (manifestU64 (some (.string "+1")) "gpa" 0 = .ok 1 ∧
      ¬ ∃ value, StrictNumber ['+', '1'] value) := by
  have one : Denotes 16 ['1'] (1 : UInt64) :=
    ⟨by simp, List.forall_mem_singleton.mpr (by decide), by decide⟩
  have decimal : Denotes 10 ['1'] (1 : UInt64) :=
    ⟨by simp, List.forall_mem_singleton.mpr (by decide), by decide⟩
  have twice : LooseAddress ['0', 'x', '0', 'x', '1'] 1 :=
    ⟨2, ['1'], one, .inr ⟨by decide, rfl⟩⟩
  have plus : LooseNumber ['+', '1'] 1 := ⟨['1'], .inl ⟨rfl, decimal⟩⟩
  refine ⟨⟨systemMapAddress_eq_ok.mpr (.inr twice), ?_⟩,
    ⟨profileNumber_eq_ok.mpr (.inr plus), ?_⟩,
    ⟨manifestU64_eq_ok.mpr (.inr plus), ?_⟩⟩
  · intro given
    obtain ⟨value, strict⟩ := given
    exact strict.not_loose twice
  · intro given
    obtain ⟨value, strict⟩ := given
    exact strict.not_loose plus
  · intro given
    obtain ⟨value, strict⟩ := given
    exact strict.not_loose plus

end LibVmi.Profile
