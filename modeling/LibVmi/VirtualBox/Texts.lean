import LibVmi.Data.Numerals
import LibVmi.VirtualBox.Session

namespace LibVmi.VirtualBox

open Data

/-! What the tool may print, and what a session reads out of it. Registers go by
their names in lower case. -/

def lower (name : List Char) : List Char :=
  name.map Char.toLower

/-- Digits that denote the value, in either case and with any zeros before
them, with or without the mark of the radix and with or without quotes. -/
def WrittenAs (value : UInt64) (text : List Char) : Prop :=
  ∃ quote ∈ [[], ['"']], ∃ mark ∈ [[], "0x".toList, "0X".toList], ∃ digits,
    text = quote ++ (mark ++ digits) ++ quote ∧ Denotes 16 digits value

/-- The register is what stands before the first equals sign of the line. -/
def IsAbout (register line : List Char) : Prop :=
  ∃ left name right rest, line = left ++ name ++ right ++ '=' :: rest ∧
    lower name = lower register ∧ ∀ char ∈ left ++ right, isWhitespace char

structure RegisterLine (register : List Char) (value : UInt64)
    (line : List Char) : Prop where
  shown : ∃ left name right gap written rest,
    line = left ++ name ++ right ++ '=' :: (gap ++ written ++ rest) ∧
      lower name = lower register ∧ (∀ char ∈ name, char.isAlphanum) ∧
      (∀ char ∈ left ++ right, isWhitespace char) ∧
      (∀ char ∈ gap ++ rest, isWhitespace char) ∧ WrittenAs value written

/-- The first line that is about the register gives it its value. -/
structure ShowsRegister (register : List Char) (value : UInt64)
    (text : String) : Prop where
  shown : ∃ before line after, lines text.toList = before ++ line :: after ∧
    (∀ other ∈ before, ¬ IsAbout register other) ∧
    RegisterLine register value line

/-- The first line that is about the state of the machine names it. -/
structure ShowsState (state : String) (text : String) : Prop where
  shown : ∃ before after, ∃ quote ∈ [[], ['"']],
    lines text.toList = before ++
      ("VMState=".toList ++ (quote ++ state.toList ++ quote)) :: after ∧
    ∀ other ∈ before, ¬ "VMState=".toList <+: other
  word : '"' ∉ state.toList

/-- Text is bared of the quotes around it. -/
theorem trimMatches_quoted {quote text : List Char}
    (known : quote ∈ [[], ['"']]) (first : text.head? ≠ some '"')
    (last : text.getLast? ≠ some '"') :
    trimMatches '"' (quote ++ text ++ quote) = text := by
  obtain rfl | rfl : quote = [] ∨ quote = ['"'] := by simpa using known
  · rw [List.nil_append, List.append_nil]
    exact trimMatches_eq_self first last
  · exact trimMatches_between first last

/-! Registers. -/

theorem registerLine_none {register line : List Char}
    (other : ¬ IsAbout register line) : registerLine register line = none := by
  unfold registerLine
  cases split : splitOnce '=' line with
  | none => rfl
  | some parts =>
      obtain ⟨name, value⟩ := parts
      obtain ⟨left, right, named, blank⟩ := trim_spec name
      refine if_neg fun same => other ⟨left, trim name, right, value, ?_,
        beq_iff_eq.mp same, blank⟩
      rw [← named]
      exact splitOnce_eq_some split

section Values

variable {value : UInt64} {mark digits : List Char}
  (denotes : Denotes 16 digits value)

include denotes

theorem last_isDigit (before : List Char) :
    ∀ char ∈ (before ++ digits).getLast?, (digitOf 16 char).isSome := by
  intro char last
  rw [List.getLast?_append_of_ne_nil _ denotes.nonempty] at last
  exact denotes.digits_only char (List.mem_of_getLast? last)

variable (known : mark ∈ [[], "0x".toList, "0X".toList])

include known

theorem head_isDigit :
    ∀ char ∈ (mark ++ digits).head?, (digitOf 16 char).isSome := by
  intro char first
  simp only [List.mem_cons, List.not_mem_nil, or_false] at known
  obtain rfl | rfl | rfl := known
  · exact denotes.digits_only char (List.mem_of_head? first)
  · cases first
    decide
  · cases first
    decide

theorem stripHexPrefix_mark : stripHexPrefix (mark ++ digits) = digits := by
  simp only [List.mem_cons, List.not_mem_nil, or_false] at known
  obtain rfl | rfl | rfl := known
  · rw [List.nil_append]
    -- A digit is no mark, so bare digits are left as they are.
    unfold stripHexPrefix
    split
    · exact absurd (denotes.digits_only 'x' (by simp)) (by decide)
    · exact absurd (denotes.digits_only 'X' (by simp)) (by decide)
    · rfl
  · rfl
  · rfl

end Values

theorem WrittenAs.visible {value : UInt64} {text : List Char}
    (written : WrittenAs value text) :
    text ≠ [] ∧ (∀ char ∈ text.head?, isWhitespace char = false) ∧
      ∀ char ∈ text.getLast?, isWhitespace char = false := by
  obtain ⟨quote, quoted, mark, known, digits, rfl, denotes⟩ := written
  have nonempty : mark ++ digits ≠ [] :=
    List.append_ne_nil_of_right_ne_nil _ denotes.nonempty
  obtain rfl | rfl : quote = [] ∨ quote = ['"'] := by simpa using quoted
  · rw [List.nil_append, List.append_nil]
    exact ⟨nonempty,
      fun char first => digitOf_plain (head_isDigit denotes known char first),
      fun char last => digitOf_plain (last_isDigit denotes _ char last)⟩
  · refine ⟨by simp, fun char first => ?_, fun char last => ?_⟩
    · cases first
      decide
    · rw [List.getLast?_concat] at last
      cases last
      decide

theorem WrittenAs.bare {value : UInt64} {text : List Char}
    (written : WrittenAs value text) :
    fromStrRadix 16 (stripHexPrefix (trimMatches '"' text)) = .ok value := by
  obtain ⟨quote, quoted, mark, known, digits, rfl, denotes⟩ := written
  rw [trimMatches_quoted quoted, stripHexPrefix_mark denotes known]
  · exact (fromStrRadix_eq_ok (by decide) (by decide) _ _).mpr (.inl denotes)
  · intro first
    exact absurd (head_isDigit denotes known '"' first) (by decide)
  · intro last
    exact absurd (last_isDigit denotes _ '"' last) (by decide)

theorem registerLine_some {register line : List Char} {value : UInt64}
    (valid : register ≠ []) (shows : RegisterLine register value line) :
    ∃ text, registerLine register line = some text ∧
      fromStrRadix 16 (stripHexPrefix text) = .ok value := by
  obtain ⟨left, name, right, gap, written, rest, rfl, named, plain, blank,
    spaced, shown⟩ := shows.shown
  have nonempty : name ≠ [] := by
    rintro rfl
    exact valid (List.map_eq_nil_iff.mp named.symm)
  have absent : '=' ∉ left ++ name ++ right := by
    rw [List.append_assoc, List.mem_append, List.mem_append]
    rintro (member | member | member)
    · exact absurd (blank '=' (List.mem_append_left _ member)) (by decide)
    · exact absurd (plain '=' member) (by decide)
    · exact absurd (blank '=' (List.mem_append_right _ member)) (by decide)
  have trimmedName : trim (left ++ name ++ right) = name :=
    trim_between (fun char member => blank char (List.mem_append_left _ member))
      (fun char member => blank char (List.mem_append_right _ member))
      (fun char first => alphanum_visible (plain char (List.mem_of_head? first)))
      (fun char last => alphanum_visible
        (plain char (List.mem_of_getLast? last))) nonempty
  obtain ⟨some, first, last⟩ := shown.visible
  have trimmedValue : trim (gap ++ written ++ rest) = written :=
    trim_between (fun char member => spaced char (List.mem_append_left _ member))
      (fun char member => spaced char (List.mem_append_right _ member))
      first last some
  refine ⟨trimMatches '"' written, ?_, shown.bare⟩
  unfold registerLine
  rw [splitOnce_append absent]
  simp only [Option.bind_eq_bind, Option.bind_some, trimmedName, trimmedValue]
  exact if_pos (beq_iff_eq.mpr named)

theorem parseRegister_shown {register text : String} {value : UInt64}
    (valid : register.toList ≠ [])
    (shows : ShowsRegister register.toList value text) :
    parseRegister text register = .ok value := by
  obtain ⟨before, line, after, split, others, shown⟩ := shows.shown
  obtain ⟨found, given, parsed⟩ := registerLine_some valid shown
  have skipped : before.findSome? (registerLine register.toList) = none :=
    List.findSome?_eq_none_iff.mpr fun other member =>
      registerLine_none (others other member)
  unfold parseRegister
  rw [split, List.findSome?_append, skipped, Option.none_or,
    List.findSome?_cons, given]
  exact mapError_eq_ok.mpr parsed

/-! The numbers that a session writes. -/

theorem denotes_decimal (vcpu : UInt32) :
    Denotes 10 (tryDecimalU32 vcpu).toList vcpu := by
  rw [tryDecimalU32, String.toList_ofList]
  exact denotes_toDigits (by decide) (by decide) vcpu

theorem denotes_padded (value : UInt64) :
    Denotes 16 ((Nat.toDigits 16 value.toNat).leftpad 16 '0') value :=
  (denotes_toDigits (by decide) (by decide) value).leftpad (by decide) 16

/-! The state. -/

theorem parseState_shown {state text : String}
    (shows : ShowsState state text) :
    parseState text = .ok (stateOf state) := by
  obtain ⟨before, after, quote, quoted, split, others⟩ := shows.shown
  have skipped : before.findSome? (stripPrefix "VMState=".toList) = none :=
    List.findSome?_eq_none_iff.mpr fun line member =>
      if_neg (others line member)
  have found : stripPrefix "VMState=".toList
      ("VMState=".toList ++ (quote ++ state.toList ++ quote)) =
        some (quote ++ state.toList ++ quote) :=
    (if_pos (List.prefix_append _ _)).trans
      (congrArg some (List.drop_left ..))
  have bare : trimMatches '"' (quote ++ state.toList ++ quote) =
      state.toList :=
    trimMatches_quoted quoted
      (fun head => shows.word (List.mem_of_head? head))
      (fun last => shows.word (List.mem_of_getLast? last))
  unfold parseState
  rw [split, List.findSome?_append, skipped, Option.none_or,
    List.findSome?_cons, found]
  simp only [okOr_some, ok_bind, bare, String.ofList_toList, pure_eq_ok]

end LibVmi.VirtualBox
