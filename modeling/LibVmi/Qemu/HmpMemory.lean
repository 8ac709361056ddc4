import LibVmi.Data.Numerals
import LibVmi.Types

namespace LibVmi.Qemu

open Data

/-! The text of a monitor that dumps memory: lines of an address, a colon and
hexadecimal bytes. -/

section Parser

variable (address : UInt64) (expected : Nat)

def dumpFailed : VmiError := .readFailed address expected

/-- The text behind the lead of a byte, without its commas. -/
def tokenHex (token : List Char) : Option (List Char) :=
  match trimEndMatches ',' token with
  | '0' :: 'x' :: hex => some hex
  | '0' :: 'X' :: hex => some hex
  | _ => none

def parseToken (bytes : List UInt8) (token : List Char) :
    Result (List UInt8) := do
  let hex ← okOr (tokenHex token) (dumpFailed address expected)
  rejectIf (utf8Length hex ≠ 2 ∨ bytes.length = expected)
    (dumpFailed address expected)
  let byte ← (unsignedFromStr 16 hex : Except String UInt8).mapError fun _ =>
    dumpFailed address expected
  return bytes ++ [byte]

def parseDumpLine (bytes : List UInt8) (line : List Char) :
    Result (List UInt8) := do
  let (_, values) ← okOr (splitOnce ':' line) (dumpFailed address expected)
  (splitWhitespace values).foldlM (parseToken address expected) bytes

def dumpLines (text : List Char) : List (List Char) :=
  (lines text).filter fun line => !(trim line).isEmpty

/-- Only a capacity past the largest allocation is taken to fail. -/
def parseHmpMemory (text : String) : Result (List UInt8) := do
  rejectIf (2 ^ 63 ≤ expected) (.backend
    ("failed to allocate QEMU memory response: memory allocation failed " ++
      "because the computed capacity exceeded the collection's maximum"))
  let bytes ← (dumpLines text.toList).foldlM (parseDumpLine address expected) []
  rejectIf (bytes.length ≠ expected) (dumpFailed address expected)
  return bytes

end Parser

/-! The language of the tokens. -/

/-- A lead, the given digits and any number of commas. -/
def Leads (token digits : List Char) : Prop :=
  ∃ mark commas, (mark = 'x' ∨ mark = 'X') ∧
    token = '0' :: mark :: (digits ++ List.replicate commas ',')

/-- A byte of exactly two digits. -/
def StrictToken (token : List Char) (byte : UInt8) : Prop :=
  ∃ high low, Leads token [high, low] ∧ Denotes 16 [high, low] byte

/-- A byte of one digit behind a plus. -/
def SignedToken (token : List Char) (byte : UInt8) : Prop :=
  ∃ digit, Leads token ['+', digit] ∧ Denotes 16 [digit] byte

def tokensOf (line : List Char) : List (List Char) :=
  match splitOnce ':' line with
  | some (_, values) => splitWhitespace values
  | none => []

def dumpTokens (text : String) : List (List Char) :=
  (dumpLines text.toList).flatMap tokensOf

/-- Every line has its colon and the tokens stand for these bytes in order. -/
structure Dump (accepts : List Char → UInt8 → Prop) (text : String)
    (bytes : List UInt8) : Prop where
  colons : ∀ line ∈ dumpLines text.toList, ':' ∈ line
  tokens : List.Forall₂ accepts (dumpTokens text) bytes

theorem tokenHex_eq_some {token hex : List Char}
    (last : hex.getLast? ≠ some ',') (nonempty : hex ≠ []) :
    tokenHex token = some hex ↔ Leads token hex := by
  have whole : ∀ mark, ('0' :: mark :: hex).getLast? ≠ some ',' := by
    intro mark
    obtain ⟨first, rest, rfl⟩ := List.exists_cons_of_ne_nil nonempty
    simpa using last
  constructor
  · intro found
    obtain ⟨commas, split⟩ := trimEndMatches_spec ',' token
    unfold tokenHex at found
    split at found
    · rename_i trimmed
      cases found
      rw [trimmed] at split
      exact ⟨'x', commas, .inl rfl, split⟩
    · rename_i trimmed
      cases found
      rw [trimmed] at split
      exact ⟨'X', commas, .inr rfl, split⟩
    · cases found
  · intro leads
    obtain ⟨mark, commas, rfl | rfl, rfl⟩ := leads
    · rw [tokenHex, ← List.cons_append, ← List.cons_append,
        trimEndMatches_append (whole 'x')]
      rfl
    · rw [tokenHex, ← List.cons_append, ← List.cons_append,
        trimEndMatches_append (whole 'X')]
      rfl

theorem utf8Length_denotes {digits : List Char} {byte : UInt8}
    (denotes : Denotes 16 digits byte) :
    utf8Length digits = digits.length :=
  utf8Length_ascii fun char member =>
    utf8Size_digit (denotes.digits_only char member)

theorem getLast?_denotes {digits : List Char} {byte : UInt8}
    (denotes : Denotes 16 digits byte) : digits.getLast? ≠ some ',' := by
  intro last
  have accepted := denotes.digits_only ',' (List.mem_of_getLast? last)
  exact absurd accepted (by decide)

/-- The digits that the standard parser takes for a byte of two characters. -/
theorem unsignedFromStr_pair {hex : List Char} {byte : UInt8} :
    unsignedFromStr 16 hex = .ok byte ∧ utf8Length hex = 2 ↔
      (∃ high low, hex = [high, low] ∧ Denotes 16 [high, low] byte) ∨
      ∃ digit, hex = ['+', digit] ∧ Denotes 16 [digit] byte := by
  rw [unsignedFromStr_eq_ok (by decide) (by decide)]
  constructor
  · intro given
    obtain ⟨denotes | ⟨digits, rfl, denotes⟩, two⟩ := given
    · rw [utf8Length_denotes denotes, List.length_eq_two] at two
      obtain ⟨high, low, rfl⟩ := two
      exact .inl ⟨high, low, rfl, denotes⟩
    · have one : digits.length = 1 := by
        rw [← utf8Length_denotes denotes]
        have split : utf8Length ('+' :: digits) = 1 + utf8Length digits := rfl
        omega
      obtain ⟨digit, rfl⟩ := List.length_eq_one_iff.mp one
      exact .inr ⟨digit, rfl, denotes⟩
  · intro given
    obtain ⟨high, low, rfl, denotes⟩ | ⟨digit, rfl, denotes⟩ := given
    · exact ⟨.inl denotes, utf8Length_denotes denotes⟩
    · refine ⟨.inr ⟨[digit], rfl, denotes⟩, ?_⟩
      have split : utf8Length ['+', digit] = 1 + utf8Length [digit] := rfl
      rw [split, utf8Length_denotes denotes]
      rfl

def LooseToken (token : List Char) (byte : UInt8) : Prop :=
  StrictToken token byte ∨ SignedToken token byte

theorem LooseToken.leads {token : List Char} {byte : UInt8}
    (loose : LooseToken token byte) : ∃ digits, Leads token digits := by
  obtain ⟨_, _, leads, _⟩ | ⟨_, leads, _⟩ := loose
  all_goals exact ⟨_, leads⟩

section Parser

variable {address : UInt64} {expected : Nat}

/-- One token adds its byte, while there is room for one. -/
theorem parseToken_eq_ok {bytes result : List UInt8} {token : List Char} :
    parseToken address expected bytes token = .ok result ↔
      ∃ byte, LooseToken token byte ∧ bytes.length ≠ expected ∧
        result = bytes ++ [byte] := by
  have loose : ∀ byte, LooseToken token byte ↔ ∃ hex,
      tokenHex token = some hex ∧ unsignedFromStr 16 hex = .ok byte ∧
        utf8Length hex = 2 := by
    intro byte
    constructor
    · intro given
      obtain ⟨high, low, leads, denotes⟩ | ⟨digit, leads, denotes⟩ := given
      · exact ⟨_, (tokenHex_eq_some (getLast?_denotes denotes)
          denotes.nonempty).mpr leads,
          unsignedFromStr_pair.mpr (.inl ⟨high, low, rfl, denotes⟩)⟩
      · have last := getLast?_denotes denotes
        exact ⟨_, (tokenHex_eq_some (by simpa using last) (by simp)).mpr leads,
          unsignedFromStr_pair.mpr (.inr ⟨digit, rfl, denotes⟩)⟩
    · intro given
      obtain ⟨hex, found, parsed⟩ := given
      obtain ⟨high, low, rfl, denotes⟩ | ⟨digit, rfl, denotes⟩ :=
        unsignedFromStr_pair.mp parsed
      · exact .inl ⟨high, low, (tokenHex_eq_some (getLast?_denotes denotes)
          denotes.nonempty).mp found, denotes⟩
      · have last := getLast?_denotes denotes
        exact .inr ⟨digit, (tokenHex_eq_some (by simpa using last)
          (by simp)).mp found, denotes⟩
  unfold parseToken
  simp only [bind_eq_ok, okOr_eq_ok, rejectIf_eq_ok, mapError_eq_ok,
    pure_eq_ok, Except.ok.injEq, not_or, not_not]
  constructor
  · intro given
    obtain ⟨hex, found, _, ⟨two, room⟩, byte, parsed, rfl⟩ := given
    exact ⟨byte, (loose byte).mpr ⟨hex, found, parsed, two⟩, room, rfl⟩
  · intro given
    obtain ⟨byte, token, room, rfl⟩ := given
    obtain ⟨hex, found, parsed, two⟩ := (loose byte).mp token
    exact ⟨hex, found, (), ⟨two, room⟩, byte, parsed, rfl⟩

theorem parseTokens_eq_ok {tokens : List (List Char)} {bytes : List UInt8}
    (within : bytes.length ≤ expected) {result : List UInt8} :
    tokens.foldlM (parseToken address expected) bytes = .ok result ↔
      ∃ read, List.Forall₂ LooseToken tokens read ∧ result = bytes ++ read ∧
        result.length ≤ expected := by
  induction tokens generalizing bytes with
  | nil =>
      simp only [List.foldlM_nil, pure_eq_ok, Except.ok.injEq,
        List.forall₂_nil_left_iff, exists_eq_left, List.append_nil]
      constructor
      · intro same
        subst same
        exact ⟨rfl, within⟩
      · intro given
        exact given.1.symm
  | cons token rest induction =>
      simp only [List.foldlM_cons, bind_eq_ok, parseToken_eq_ok]
      constructor
      · intro given
        obtain ⟨_, ⟨byte, first, room, rfl⟩, later⟩ := given
        have grown : (bytes ++ [byte]).length ≤ expected := by
          rw [List.length_append, List.length_singleton]
          omega
        obtain ⟨read, others, same, most⟩ := (induction grown).mp later
        refine ⟨byte :: read, .cons first others, ?_, most⟩
        rw [same, List.append_assoc, List.singleton_append]
      · intro given
        obtain ⟨read, accepted, rfl, most⟩ := given
        cases accepted with
        | @cons _ byte _ read first others =>
            rw [List.length_append, List.length_cons] at most
            refine ⟨bytes ++ [byte], ⟨byte, first, by omega, rfl⟩, ?_⟩
            apply (induction (by
              rw [List.length_append, List.length_singleton]
              omega)).mpr
            refine ⟨read, others, by simp, ?_⟩
            rw [List.length_append, List.length_cons]
            exact most

/-- One line adds the bytes of its tokens. -/
theorem parseDumpLine_eq_ok {line : List Char} {bytes : List UInt8}
    (within : bytes.length ≤ expected) {result : List UInt8} :
    parseDumpLine address expected bytes line = .ok result ↔
      ':' ∈ line ∧ ∃ read, List.Forall₂ LooseToken (tokensOf line) read ∧
        result = bytes ++ read ∧ result.length ≤ expected := by
  unfold parseDumpLine tokensOf
  by_cases colon : ':' ∈ line
  · rw [splitOnce, if_pos colon, okOr_some, ok_bind]
    dsimp only
    rw [parseTokens_eq_ok within]
    simp only [colon, true_and]
  · rw [splitOnce, if_neg colon, okOr_none, error_bind]
    simp only [reduceCtorEq, colon, false_and]

theorem parseDumpLines_eq_ok {dump : List (List Char)} {bytes : List UInt8}
    (within : bytes.length ≤ expected) {result : List UInt8} :
    dump.foldlM (parseDumpLine address expected) bytes = .ok result ↔
      (∀ line ∈ dump, ':' ∈ line) ∧
        ∃ read, List.Forall₂ LooseToken (dump.flatMap tokensOf) read ∧
          result = bytes ++ read ∧ result.length ≤ expected := by
  induction dump generalizing bytes with
  | nil =>
      simp only [List.foldlM_nil, pure_eq_ok, Except.ok.injEq,
        List.flatMap_nil, List.forall₂_nil_left_iff, exists_eq_left,
        List.append_nil, List.not_mem_nil, false_implies, implies_true,
        true_and]
      constructor
      · intro same
        subst same
        exact ⟨rfl, within⟩
      · intro given
        exact given.1.symm
  | cons line rest induction =>
      rw [List.foldlM_cons, bind_eq_ok, List.forall_mem_cons, List.flatMap_cons]
      constructor
      · intro given
        obtain ⟨middle, here, later⟩ := given
        obtain ⟨colon, read, first, rfl, most⟩ :=
          (parseDumpLine_eq_ok within).mp here
        obtain ⟨colons, others, second, rfl, total⟩ := (induction most).mp later
        refine ⟨⟨colon, colons⟩, read ++ others,
          List.rel_append first second, ?_, total⟩
        rw [List.append_assoc]
      · intro given
        obtain ⟨⟨colon, colons⟩, read, accepted, rfl, most⟩ := given
        have first := List.forall₂_take (tokensOf line).length accepted
        have second := List.forall₂_drop (tokensOf line).length accepted
        rw [List.take_left] at first
        rw [List.drop_left] at second
        rw [← List.take_append_drop (tokensOf line).length read,
          List.length_append, List.length_append] at most
        refine ⟨bytes ++ read.take (tokensOf line).length,
          (parseDumpLine_eq_ok within).mpr ⟨colon, _, first, rfl, ?_⟩,
          (induction ?_).mpr ⟨colons, _, second, ?_, ?_⟩⟩
        · rw [List.length_append]
          omega
        · rw [List.length_append]
          omega
        · rw [List.append_assoc, List.take_append_drop]
        · rw [List.length_append, ← List.take_append_drop
            (tokensOf line).length read, List.length_append]
          omega

/-- The parser accepts what is right up to a sign in some of the tokens. -/
theorem parseHmpMemory_eq_ok {text : String} {bytes : List UInt8} :
    parseHmpMemory address expected text = .ok bytes ↔
      expected < 2 ^ 63 ∧ Dump LooseToken text bytes ∧
        bytes.length = expected := by
  have start : ([] : List UInt8).length ≤ expected := Nat.zero_le expected
  rw [parseHmpMemory, rejectIf_bind_eq_ok, Nat.not_le, bind_eq_ok]
  simp only [rejectIf_bind_eq_ok, not_not, pure_eq_ok, Except.ok.injEq,
    parseDumpLines_eq_ok start, List.nil_append]
  constructor
  · intro given
    obtain ⟨small, _, ⟨colons, read, tokens, rfl, _⟩, whole, rfl⟩ := given
    exact ⟨small, ⟨colons, tokens⟩, whole⟩
  · intro given
    obtain ⟨small, dump, whole⟩ := given
    exact ⟨small, bytes, ⟨dump.colons, bytes, dump.tokens, rfl, by omega⟩,
      whole, rfl⟩

theorem parseToken_error {bytes : List UInt8} {token : List Char}
    {error : VmiError}
    (failed : parseToken address expected bytes token = .error error) :
    error = dumpFailed address expected := by
  unfold parseToken at failed
  simp only [bind_eq_error, okOr_eq_error, rejectIf_eq_error,
    mapError_eq_error, pure_eq_ok, reduceCtorEq, and_false, exists_false,
    or_false] at failed
  obtain ⟨_, same⟩ | ⟨_, _, ⟨_, same⟩ | ⟨_, _, _, _, same⟩⟩ := failed
  all_goals exact same.symm

theorem parseDumpLine_error {bytes : List UInt8} {line : List Char}
    {error : VmiError}
    (failed : parseDumpLine address expected bytes line = .error error) :
    error = dumpFailed address expected := by
  unfold parseDumpLine at failed
  obtain missing | ⟨_, _, tokens⟩ := bind_eq_error.mp failed
  · exact (okOr_eq_error.mp missing).2.symm
  · exact foldlM_eq_error (fun _ _ _ => parseToken_error) tokens

theorem parseHmpMemory_error {text : String} (small : expected < 2 ^ 63)
    {error : VmiError}
    (failed : parseHmpMemory address expected text = .error error) :
    error = dumpFailed address expected := by
  rw [parseHmpMemory, rejectIf_neg (Nat.not_le.mpr small), ok_bind] at failed
  obtain lines | ⟨_, _, rest⟩ := bind_eq_error.mp failed
  · exact foldlM_eq_error (fun _ _ _ => parseDumpLine_error) lines
  · obtain short | ⟨_, _, done⟩ := bind_eq_error.mp rest
    · exact (rejectIf_eq_error.mp short).2.symm
    · cases done

end Parser

/-! Where signs stay out, the two languages are one. -/

theorem not_strict_and_signed {token : List Char} {byte other : UInt8}
    (strict : StrictToken token byte) : ¬ SignedToken token other := by
  intro signed
  obtain ⟨high, low, ⟨_, _, _, split⟩, denotes⟩ := strict
  obtain ⟨digit, ⟨_, _, _, same⟩, _⟩ := signed
  rw [split] at same
  simp only [List.cons_append, List.cons.injEq] at same
  rw [same.2.2.1] at denotes
  exact denotes.unsigned List.mem_cons_self

theorem strict_of_unsigned {tokens : List (List Char)} {bytes : List UInt8}
    (loose : List.Forall₂ LooseToken tokens bytes)
    (unsigned : ∀ token ∈ tokens, ∀ byte, ¬ SignedToken token byte) :
    List.Forall₂ StrictToken tokens bytes := by
  induction loose with
  | nil => exact .nil
  | cons first _ induction =>
      rw [List.forall_mem_cons] at unsigned
      exact .cons (first.resolve_right (unsigned.1 _)) (induction unsigned.2)

theorem exists_accepted {accepts : List Char → UInt8 → Prop}
    {tokens : List (List Char)} {bytes : List UInt8}
    (accepted : List.Forall₂ accepts tokens bytes) :
    ∀ token ∈ tokens, ∃ byte, accepts token byte := by
  induction accepted with
  | nil => simp
  | cons first _ induction =>
      rw [List.forall_mem_cons]
      exact ⟨⟨_, first⟩, induction⟩

/-- A text of the dumped length with nothing but strict tokens. -/
def ExactDump (text : String) (expected : Nat) (bytes : List UInt8) : Prop :=
  Dump StrictToken text bytes ∧ bytes.length = expected

/-- A text of the dumped length whose tokens are right but for signs. -/
def SignedDump (text : String) (expected : Nat) : Prop :=
  ∃ bytes, Dump LooseToken text bytes ∧ bytes.length = expected ∧
    ∃ token ∈ dumpTokens text, ∃ byte, SignedToken token byte

/-- Without a signed token what is accepted is exact. -/
theorem parseHmpMemory_exact {address : UInt64} {expected : Nat}
    {text : String} (small : expected < 2 ^ 63)
    (unsigned : ¬ SignedDump text expected) (bytes : List UInt8) :
    parseHmpMemory address expected text = .ok bytes ↔
      ExactDump text expected bytes := by
  rw [parseHmpMemory_eq_ok]
  constructor
  · intro accepted
    obtain ⟨_, dump, whole⟩ := accepted
    have plain : ∀ token ∈ dumpTokens text, ∀ byte,
        ¬ SignedToken token byte := by
      intro token member byte signed
      exact unsigned ⟨bytes, dump, whole, token, member, byte, signed⟩
    exact ⟨⟨dump.colons, strict_of_unsigned dump.tokens plain⟩, whole⟩
  · intro strict
    obtain ⟨dump, whole⟩ := strict
    exact ⟨small, ⟨dump.colons, dump.tokens.imp fun _ _ => .inl⟩, whole⟩

/-- A signed token is accepted and is not exact. -/
theorem parseHmpMemory_signed {expected : Nat} {text : String}
    (small : expected < 2 ^ 63) (signed : SignedDump text expected)
    (address : UInt64) :
    ∃ bytes, parseHmpMemory address expected text = .ok bytes ∧
      ¬ ExactDump text expected bytes := by
  obtain ⟨bytes, dump, whole, token, member, byte, marked⟩ := signed
  refine ⟨bytes, parseHmpMemory_eq_ok.mpr ⟨small, dump, whole⟩, ?_⟩
  intro strict
  obtain ⟨other, exactly⟩ := exists_accepted strict.1.tokens token member
  exact not_strict_and_signed exactly marked

/-- A dump is decoded exactly unless its length cannot be allocated, or some
of its bytes are written with a plus in place of their first digit. -/
theorem hmp_memory_exact_iff (address : UInt64) (expected : Nat)
    (text : String) :
    ((∀ bytes, parseHmpMemory address expected text = .ok bytes ↔
        ExactDump text expected bytes) ∧
      ((∀ bytes, ¬ ExactDump text expected bytes) →
        parseHmpMemory address expected text =
          .error (.readFailed address expected))) ↔
    expected < 2 ^ 63 ∧ ¬ SignedDump text expected := by
  constructor
  · intro given
    obtain ⟨accepts, rejects⟩ := given
    have small : expected < 2 ^ 63 := by
      by_contra large
      have refused : ∀ bytes, ¬ ExactDump text expected bytes := by
        intro bytes strict
        exact large (parseHmpMemory_eq_ok.mp ((accepts bytes).mpr strict)).1
      have failed := rejects refused
      rw [parseHmpMemory, rejectIf_pos (Nat.not_lt.mp large),
        error_bind] at failed
      cases failed
    refine ⟨small, ?_⟩
    intro signed
    obtain ⟨bytes, parsed, loose⟩ :=
      parseHmpMemory_signed small signed address
    exact loose ((accepts bytes).mp parsed)
  · intro given
    obtain ⟨small, unsigned⟩ := given
    refine ⟨parseHmpMemory_exact small unsigned, ?_⟩
    intro refused
    cases parsed : parseHmpMemory address expected text with
    | ok bytes =>
        have exactly := (parseHmpMemory_exact small unsigned bytes).mp parsed
        exact absurd exactly (refused bytes)
    | error error => rw [parseHmpMemory_error small parsed]; rfl

/-- A byte behind a plus is accepted. -/
theorem hmp_memory_signed :
    parseHmpMemory 0x1000 1 "0x1000: 0x+f" = .ok [15] ∧
      ¬ ExactDump "0x1000: 0x+f" 1 [15] := by
  have tokens : dumpTokens "0x1000: 0x+f" = [['0', 'x', '+', 'f']] := by
    decide +kernel
  have digit : Denotes 16 ['f'] (15 : UInt8) :=
    ⟨by simp, List.forall_mem_singleton.mpr (by decide), by decide⟩
  have signed : SignedToken ['0', 'x', '+', 'f'] 15 :=
    ⟨'f', ⟨'x', 0, .inl rfl, rfl⟩, digit⟩
  refine ⟨by decide +kernel, ?_⟩
  intro strict
  have accepted := strict.1.tokens
  rw [tokens] at accepted
  obtain ⟨byte, exactly⟩ :=
    exists_accepted accepted _ (List.mem_singleton_self _)
  exact not_strict_and_signed exactly signed

end LibVmi.Qemu
