import Mathlib.Data.List.DropRight
import Mathlib.Data.List.Rotate

namespace LibVmi.Data

/-! Text as a list of characters, split as the standard library of the source
splits it. -/

def isWhitespace (character : Char) : Bool :=
  let point := character.toNat
  (9 ≤ point && point ≤ 13) || point == 0x20 || point == 0x85 ||
    point == 0xa0 || point == 0x1680 ||
    (0x2000 ≤ point && point ≤ 0x200a) || point == 0x2028 ||
    point == 0x2029 || point == 0x202f || point == 0x205f || point == 0x3000

def isControl (character : Char) : Bool :=
  character.toNat < 0x20 ||
    (0x7f ≤ character.toNat && character.toNat ≤ 0x9f)

def splitWhitespace (text : List Char) : List (List Char) :=
  (text.splitOnP isWhitespace).filter fun field => !field.isEmpty

def withoutReturn (line : List Char) : List Char :=
  if line.getLast? = some '\r' then line.dropLast else line

/-- What follows the last line feed is a line only where it is not empty, and
keeps its carriage return. -/
def lines (text : List Char) : List (List Char) :=
  let parts := text.splitOnP (· == '\n')
  parts.dropLast.map withoutReturn ++
    (parts.getLast?.toList.filter fun line => !line.isEmpty)

def trim (text : List Char) : List Char :=
  (text.dropWhile isWhitespace).rdropWhile isWhitespace

def trimEndMatches (character : Char) (text : List Char) : List Char :=
  text.rdropWhile (· = character)

def trimMatches (character : Char) (text : List Char) : List Char :=
  (text.dropWhile (· = character)).rdropWhile (· = character)

def stripPrefix (lead text : List Char) : Option (List Char) :=
  if lead <+: text then some (text.drop lead.length) else none

def splitOnce (separator : Char) (text : List Char) :
    Option (List Char × List Char) :=
  if separator ∈ text then
    some (text.takeWhile (· ≠ separator),
      (text.dropWhile (· ≠ separator)).drop 1)
  else none

/-- The length of a text in its bytes. -/
def utf8Length : List Char → Nat
  | [] => 0
  | char :: rest => char.utf8Size + utf8Length rest

theorem alphanum_bounds {char : Char} (plain : char.isAlphanum) :
    48 ≤ char.toNat ∧ char.toNat ≤ 122 := by
  unfold Char.isAlphanum Char.isAlpha Char.isUpper Char.isLower Char.isDigit
    at plain
  simp only [Bool.or_eq_true, Bool.and_eq_true, decide_eq_true_eq,
    UInt32.le_iff_toNat_le, ge_iff_le] at plain
  change 48 ≤ char.val.toNat ∧ char.val.toNat ≤ 122
  obtain (upper | lower) | digit := plain
  · exact ⟨Nat.le_trans (by decide) upper.1, Nat.le_trans upper.2 (by decide)⟩
  · exact ⟨Nat.le_trans (by decide) lower.1, lower.2⟩
  · exact ⟨digit.1, Nat.le_trans digit.2 (by decide)⟩

theorem alphanum_visible {char : Char} (plain : char.isAlphanum) :
    isWhitespace char = false := by
  have bounds := alphanum_bounds plain
  by_contra blank
  rw [Bool.not_eq_false, isWhitespace] at blank
  simp only [Bool.or_eq_true, Bool.and_eq_true, decide_eq_true_eq,
    beq_iff_eq] at blank
  omega

theorem trimEndMatches_spec (character : Char) (text : List Char) :
    ∃ count, text = trimEndMatches character text ++
      List.replicate count character := by
  unfold trimEndMatches
  induction text using List.reverseRecOn with
  | nil => exact ⟨0, rfl⟩
  | append_singleton text last induction =>
      by_cases same : last = character
      · subst same
        obtain ⟨count, split⟩ := induction
        rw [List.rdropWhile_concat_pos _ _ _ (by simp)]
        refine ⟨count + 1, ?_⟩
        rw [List.replicate_succ', ← List.append_assoc, ← split]
      · rw [List.rdropWhile_concat_neg _ _ _ (by simpa using same)]
        exact ⟨0, by simp⟩

theorem trimEndMatches_append {character : Char} {text : List Char}
    (last : text.getLast? ≠ some character) (count : Nat) :
    trimEndMatches character (text ++ List.replicate count character) =
      text := by
  unfold trimEndMatches
  induction count with
  | zero =>
      rw [List.replicate_zero, List.append_nil, List.rdropWhile_eq_self_iff]
      intro nonempty
      rw [List.getLast?_eq_getLast_of_ne_nil nonempty] at last
      simpa using last
  | succ count induction =>
      rw [List.replicate_succ', ← List.append_assoc,
        List.rdropWhile_concat_pos _ _ _ (by simp), induction]

theorem utf8Length_ascii {text : List Char}
    (ascii : ∀ char ∈ text, char.utf8Size = 1) :
    utf8Length text = text.length := by
  induction text with
  | nil => rfl
  | cons char rest induction =>
      have later : utf8Length rest = rest.length := by
        apply induction
        intro other member
        exact ascii other (List.mem_cons_of_mem char member)
      rw [utf8Length, ascii char List.mem_cons_self, later, List.length_cons]
      omega

theorem trim_eq_self {text : List Char}
    (first : ∀ char ∈ text.head?, isWhitespace char = false)
    (last : ∀ char ∈ text.getLast?, isWhitespace char = false) :
    trim text = text := by
  have kept : text.dropWhile isWhitespace = text := by
    cases text with
    | nil => rfl
    | cons char rest =>
        rw [List.dropWhile_cons, if_neg (by simpa using first char rfl)]
  rw [trim, kept, List.rdropWhile_eq_self_iff]
  intro nonempty
  have final := last _ (List.getLast?_eq_getLast_of_ne_nil nonempty)
  simp [final]

/-- Blanks around a text that starts and ends visibly are trimmed. -/
theorem trim_between {left text right : List Char}
    (before : ∀ char ∈ left, isWhitespace char)
    (after : ∀ char ∈ right, isWhitespace char)
    (first : ∀ char ∈ text.head?, isWhitespace char = false)
    (last : ∀ char ∈ text.getLast?, isWhitespace char = false)
    (nonempty : text ≠ []) :
    trim (left ++ text ++ right) = text := by
  have started : (left ++ text ++ right).dropWhile isWhitespace =
      text ++ right := by
    rw [List.append_assoc, List.dropWhile_append_of_pos before]
    cases text with
    | nil => exact absurd rfl nonempty
    | cons char rest =>
        rw [List.cons_append, List.dropWhile_cons,
          if_neg (by simpa using first char rfl)]
  have ended : (text ++ right).rdropWhile isWhitespace =
      text.rdropWhile isWhitespace := by
    rw [List.rdropWhile, List.reverse_append, List.dropWhile_append_of_pos
      (fun char member => after char (List.mem_reverse.mp member))]
    rfl
  have kept : text.rdropWhile isWhitespace = text := by
    rw [List.rdropWhile_eq_self_iff]
    intro given
    have final := last _ (List.getLast?_eq_getLast_of_ne_nil given)
    simp [final]
  rw [trim, started, ended, kept]

/-- A text is what is left of it between the blanks that were trimmed. -/
theorem trim_spec (text : List Char) :
    ∃ left right, text = left ++ trim text ++ right ∧
      ∀ char ∈ left ++ right, isWhitespace char := by
  generalize restEq : text.dropWhile isWhitespace = rest
  have started : text.takeWhile isWhitespace ++ rest = text := by
    rw [← restEq, List.takeWhile_append_dropWhile]
  have ended : trim text ++ (rest.reverse.takeWhile isWhitespace).reverse =
      rest := by
    rw [trim, restEq, List.rdropWhile, ← List.reverse_append,
      List.takeWhile_append_dropWhile, List.reverse_reverse]
  refine ⟨text.takeWhile isWhitespace,
    (rest.reverse.takeWhile isWhitespace).reverse, ?_, ?_⟩
  · rw [List.append_assoc, ended, started]
  · intro char member
    obtain early | late := List.mem_append.mp member
    · exact List.mem_takeWhile_imp early
    · exact List.mem_takeWhile_imp (List.mem_reverse.mp late)

theorem trimMatches_eq_self {character : Char} {text : List Char}
    (first : text.head? ≠ some character)
    (last : text.getLast? ≠ some character) :
    trimMatches character text = text := by
  have kept : text.dropWhile (· = character) = text := by
    cases text with
    | nil => rfl
    | cons char rest =>
        rw [List.dropWhile_cons, if_neg]
        simpa using first
  have ended := trimEndMatches_append last 0
  rw [List.replicate_zero, List.append_nil] at ended
  rw [trimMatches, kept]
  exact ended

/-- What stands between two marks. -/
theorem trimMatches_between {character : Char} {text : List Char}
    (first : text.head? ≠ some character)
    (last : text.getLast? ≠ some character) :
    trimMatches character (character :: text ++ [character]) = text := by
  have dropped : (character :: text ++ [character]).dropWhile
      (· = character) = (text ++ [character]).dropWhile (· = character) := by
    rw [List.cons_append, List.dropWhile_cons, if_pos (by simp)]
  cases text with
  | nil => simp [trimMatches]
  | cons char rest =>
      have kept : (char :: rest ++ [character]).dropWhile (· = character) =
          char :: rest ++ [character] := by
        rw [List.cons_append, List.dropWhile_cons, if_neg]
        simpa using first
      rw [trimMatches, dropped, kept]
      exact trimEndMatches_append last 1

theorem splitWhitespace_cons {field : List Char} (nonempty : field ≠ [])
    (plain : ∀ char ∈ field, isWhitespace char = false) {separator : Char}
    (blank : isWhitespace separator) (rest : List Char) :
    splitWhitespace (field ++ separator :: rest) =
      field :: splitWhitespace rest := by
  unfold splitWhitespace
  rw [List.splitOnP_append_cons_of_forall_mem plain separator blank,
    List.filter_cons_of_pos (by simpa using nonempty)]

theorem splitWhitespace_single {field : List Char} (nonempty : field ≠ [])
    (plain : ∀ char ∈ field, isWhitespace char = false) :
    splitWhitespace field = [field] := by
  unfold splitWhitespace
  rw [List.splitOnP_eq_singleton plain]
  simp [nonempty]

theorem splitOnP_lines {parts : List (List Char)}
    (plain : ∀ part ∈ parts, '\n' ∉ part) :
    (parts.flatMap (· ++ ['\n'])).splitOnP (· == '\n') = parts ++ [[]] := by
  induction parts with
  | nil => rfl
  | cons part rest induction =>
      have first : ∀ char ∈ part, (char == '\n') = false := by
        intro char member
        rw [beq_eq_false_iff_ne]
        intro same
        exact plain part List.mem_cons_self (same ▸ member)
      rw [List.flatMap_cons, List.append_assoc, List.singleton_append,
        List.splitOnP_append_cons_of_forall_mem first '\n' rfl,
        induction fun part member => plain part (List.mem_cons_of_mem _ member),
        List.cons_append]

/-- Lines that hold no line feed and end in no carriage return, read back. -/
theorem lines_flatMap {parts : List (List Char)}
    (plain : ∀ part ∈ parts, '\n' ∉ part)
    (unreturned : ∀ part ∈ parts, part.getLast? ≠ some '\r') :
    lines (parts.flatMap (· ++ ['\n'])) = parts := by
  have whole : parts.map withoutReturn = parts := by
    calc
      parts.map withoutReturn = parts.map id :=
        List.map_congr_left fun part member =>
          if_neg (unreturned part member)
      _ = parts := List.map_id parts
  unfold lines
  dsimp only
  rw [splitOnP_lines plain, List.dropLast_concat, whole,
    List.getLast?_concat]
  simp

/-- Lines that end as they do on a wire, read back. -/
theorem lines_flatMap_return {parts : List (List Char)}
    (plain : ∀ part ∈ parts, '\n' ∉ part) :
    lines (parts.flatMap (· ++ ['\r', '\n'])) = parts := by
  have ended : ∀ part ∈ parts.map (· ++ ['\r']), '\n' ∉ part := by
    intro part member
    obtain ⟨line, given, rfl⟩ := List.mem_map.mp member
    simpa using plain line given
  have split := splitOnP_lines ended
  rw [List.flatMap_map] at split
  have whole : (parts.map (· ++ ['\r'])).map withoutReturn = parts := by
    rw [List.map_map]
    calc
      parts.map (withoutReturn ∘ (· ++ ['\r'])) = parts.map id := by
        apply List.map_congr_left
        intro line _
        simp [withoutReturn]
      _ = parts := List.map_id parts
  unfold lines
  dsimp only
  rw [show (fun line : List Char => line ++ ['\r', '\n']) =
      fun line => line ++ ['\r'] ++ ['\n'] by simp, split,
    List.dropLast_concat, whole, List.getLast?_concat]
  simp

theorem splitOnce_append {separator : Char} {left : List Char}
    (absent : separator ∉ left) (right : List Char) :
    splitOnce separator (left ++ separator :: right) = some (left, right) := by
  have before : ∀ char ∈ left, decide (char ≠ separator) = true := by
    intro char member
    rw [decide_eq_true_eq]
    rintro rfl
    exact absent member
  rw [splitOnce, if_pos (by simp), List.takeWhile_append_of_pos before,
    List.dropWhile_append_of_pos before]
  simp

theorem splitOnce_eq_some {separator : Char} {text left right : List Char}
    (split : splitOnce separator text = some (left, right)) :
    text = left ++ separator :: right := by
  have member : separator ∈ text := by
    by_contra absent
    rw [splitOnce, if_neg absent] at split
    cases split
  obtain ⟨before, after, rfl, absent⟩ := List.eq_append_cons_of_mem member
  rw [splitOnce_append absent] at split
  cases split
  rfl

theorem splitWhitespace_blank {separator : Char} (blank : isWhitespace separator)
    (rest : List Char) :
    splitWhitespace (separator :: rest) = splitWhitespace rest := by
  unfold splitWhitespace
  rw [← List.nil_append (separator :: rest),
    List.splitOnP_append_cons_of_forall_mem (by simp) separator blank]
  rfl

/-- Fields with a blank before each, read back. -/
theorem splitWhitespace_flatMap {fields : List (List Char)}
    (nonempty : ∀ field ∈ fields, field ≠ [])
    (plain : ∀ field ∈ fields, ∀ char ∈ field, isWhitespace char = false)
    {separator : Char} (blank : isWhitespace separator) :
    splitWhitespace (fields.flatMap (separator :: ·)) = fields := by
  induction fields with
  | nil => rfl
  | cons field rest induction =>
      rw [List.forall_mem_cons] at nonempty plain
      have others := induction nonempty.2 plain.2
      rw [List.flatMap_cons, List.cons_append, splitWhitespace_blank blank]
      cases rest with
      | nil =>
          rw [List.flatMap_nil, List.append_nil]
          exact splitWhitespace_single nonempty.1 plain.1
      | cons next rest =>
          rw [List.flatMap_cons, List.cons_append] at others ⊢
          rw [splitWhitespace_blank blank] at others
          rw [splitWhitespace_cons nonempty.1 plain.1 blank, others]

theorem trim_ne_nil {first : Char} (visible : isWhitespace first = false)
    (rest : List Char) : trim (first :: rest) ≠ [] := by
  rw [trim, List.dropWhile_cons, if_neg (by simp [visible]), Ne,
    List.rdropWhile_eq_nil_iff]
  intro blank
  have seen := blank first List.mem_cons_self
  rw [visible] at seen
  contradiction

/-- A text that follows a name is not one that leads it, where turning the
leading text round never brings up its first two characters. -/
theorem append_ne_of_rotate {lead more : List Char} {first second : Char}
    (long : 2 ≤ lead.length)
    (turned : ∀ turns < lead.length + 1,
      (lead.rotate turns).take 2 ≠ [first, second])
    (name rest : List Char) :
    lead ++ (name ++ rest) ≠ name ++ (first :: second :: more) := by
  induction shorter : name.length using Nat.strong_induction_on
    generalizing name with
  | h length induction =>
      intro same
      obtain ⟨later, nameEq, restEq⟩ | ⟨later, leadEq, tailEq⟩ :=
        List.append_eq_append_iff.mp same
      · have smaller : later.length < length := by
          rw [← shorter, nameEq, List.length_append]
          omega
        rw [nameEq, List.append_assoc] at restEq
        exact induction later.length smaller later rfl restEq
      · have rotated : lead.rotate name.length = later ++ name := by
          rw [leadEq, List.rotate_append_length_eq]
        have within : name.length < lead.length + 1 := by
          rw [leadEq, List.length_append]
          omega
        apply turned name.length within
        have width : 2 ≤ (later ++ name).length := by
          rw [leadEq, List.length_append] at long
          rw [List.length_append]
          omega
        have cut : (later ++ name ++ rest).take 2 = (later ++ name).take 2 :=
          List.take_append_of_le_length width
        rw [rotated, ← cut, List.append_assoc, ← tailEq]
        rfl

end LibVmi.Data
