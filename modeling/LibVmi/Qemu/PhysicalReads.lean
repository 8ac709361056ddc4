import LibVmi.Core.VirtualBytes
import LibVmi.Qemu.HmpMemory
import LibVmi.Qemu.Monitor

namespace LibVmi.Qemu

open Data LibVmi.Core

/-! Guest memory through the commands of a monitor. A read asks for one chunk
after the other, and another client may come in between. -/

variable {ω : Type}

def chunkSize : Nat := 256

/-- The lengths that `chunks_mut` cuts a buffer into. -/
def chunkLengths (length : Nat) : List Nat :=
  if 0 < length then
    min chunkSize length :: chunkLengths (length - chunkSize)
  else []
termination_by length
decreasing_by simp only [chunkSize]; omega

def xp (count : Nat) (address : UInt64) : List Char :=
  "xp /".toList ++ (Nat.toDigits 10 count ++ 'b' ::
    ("x 0x".toList ++ Nat.toDigits 16 address.toNat))

/-- The address of a chunk, and the command that asks for it. -/
def chunkCommand (address : Gpa) (total index count : Nat) :
    Result (UInt64 × String) := do
  let chunkOffset : UInt64 ← okOr
    ((Usize.checkedMul index chunkSize).bind tryFrom)
    (.readFailed address.raw total)
  let chunkAddress ← okOr (checkedAdd address.raw chunkOffset)
    (.readFailed address.raw total)
  let command ← tryFormatCommand 45 (xp count chunkAddress)
    "QEMU physical-memory read"
  return (chunkAddress, command)

def decodeChunk (address : UInt64) (count : Nat) (response : Result Json) :
    Result (List UInt8) := do
  let response ← response
  let text ← okOr response.asStr
    (.backend "QEMU physical-memory response was not text")
  parseHmpMemory address count text

theorem decodeChunk_length {address : UInt64} {count : Nat}
    {response : Result Json} {bytes : List UInt8}
    (decoded : decodeChunk address count response = .ok bytes) :
    bytes.length = count := by
  obtain ⟨_, _, rest⟩ := bind_eq_ok.mp decoded
  obtain ⟨_, _, parsed⟩ := bind_eq_ok.mp rest
  exact (parseHmpMemory_eq_ok.mp parsed).2.2

/-- The loop of `read_into`. -/
def readChunks (hmp : ω → String → ω × Result Json) (address : Gpa)
    (total : Nat) : (index : Nat) → (lengths : List Nat) → ω →
      ω × Result { bytes : List UInt8 // bytes.length = lengths.sum }
  | _, [], world => (world, .ok ⟨[], rfl⟩)
  | index, count :: lengths, world =>
      match chunkCommand address total index count with
      | .error error => (world, .error error)
      | .ok (chunkAddress, command) =>
          let (world, response) := hmp world command
          match decoded : decodeChunk chunkAddress count response with
          | .error error => (world, .error error)
          | .ok bytes =>
              let (world, others) :=
                readChunks hmp address total (index + 1) lengths world
              (world, others.map fun others => ⟨bytes ++ others.val, by
                rw [List.length_append, others.property, List.sum_cons,
                  decodeChunk_length decoded]⟩)

theorem chunkLengths_positive {length : Nat} (positive : 0 < length) :
    chunkLengths length =
      min chunkSize length :: chunkLengths (length - chunkSize) := by
  rw [chunkLengths, if_pos positive]

theorem chunkLengths_zero : chunkLengths 0 = [] := by
  rw [chunkLengths, if_neg (Nat.lt_irrefl 0)]

theorem chunkLengths_sum (length : Nat) : (chunkLengths length).sum = length := by
  induction length using Nat.strong_induction_on with
  | _ length induction =>
      rcases Nat.eq_zero_or_pos length with rfl | positive
      · rw [chunkLengths_zero, List.sum_nil]
      · rw [chunkLengths_positive positive, List.sum_cons,
          induction _ (by simp only [chunkSize]; omega)]
        omega

def readInto (hmp : ω → String → ω × Result Json) (world : ω) (address : Gpa)
    (length : Nat) :
    ω × Result { buffer : List UInt8 // buffer.length = length } :=
  let (world, result) :=
    readChunks hmp address length 0 (chunkLengths length) world
  (world, result.map fun bytes =>
    ⟨bytes.val, bytes.property.trans (chunkLengths_sum length)⟩)

/-! What the chunks of a read are. -/

theorem chunkCommand_inside {address : Gpa} (total count : Nat) {index : Nat}
    {current : UInt64}
    (currentEq : current.toNat = address.raw.toNat + index * chunkSize) :
    chunkCommand address total index count =
      .ok (current, String.ofList (xp count current)) := by
  have bound := current.toNat_lt
  simp only [chunkCommand, bind_eq_ok, okOr_eq_ok, Option.bind_eq_some_iff,
    Usize.checkedMul_eq_some, tryFrom_eq_some, checkedAdd_eq_some,
    unsigned_toNat_uint64, pure_eq_ok, Except.ok.injEq, Prod.mk.injEq]
  have offsetEq : (UInt64.ofNat (index * chunkSize)).toNat =
      index * chunkSize :=
    UInt64.toNat_ofNat_of_lt' (by simp only [UInt64.size]; omega)
  refine ⟨UInt64.ofNat (index * chunkSize), ⟨_, ⟨rfl, ?_⟩, offsetEq⟩, current,
    by rw [currentEq, offsetEq], _, ?_, rfl, rfl⟩
  · simp only [Usize.limit]
    omega
  · rfl

theorem chunkCommand_outside {address : Gpa} {total index count : Nat}
    (outside : 2 ^ 64 ≤ address.raw.toNat + index * chunkSize) :
    chunkCommand address total index count =
      .error (.readFailed address.raw total) := by
  cases planned : chunkCommand address total index count with
  | ok found =>
      obtain ⟨current, command⟩ := found
      simp only [chunkCommand, bind_eq_ok, okOr_eq_ok,
        Option.bind_eq_some_iff, Usize.checkedMul_eq_some, tryFrom_eq_some,
        checkedAdd_eq_some, unsigned_toNat_uint64] at planned
      obtain ⟨offset, ⟨product, ⟨rfl, _⟩, offsetEq⟩, found, foundEq, _⟩ :=
        planned
      have bound := found.toNat_lt
      omega
  | error error =>
      simp only [chunkCommand, bind_eq_error, okOr_eq_error, okOr_eq_ok,
        tryFormatCommand, tryReserve, pure_eq_ok] at planned
      rcases planned with ⟨_, rfl⟩ | ⟨_, _, ⟨_, rfl⟩ | ⟨_, _, formatted | done⟩⟩
      · rfl
      · rfl
      · rcases formatted with small | ⟨_, _, done⟩
        · exact absurd (rejectIf_eq_error.mp small).1 (by decide)
        · cases done
      · obtain ⟨_, _, done⟩ := done
        cases done

/-! What is relied on of a monitor that dumps physical memory. -/

/-- A row with a word that does not begin as a byte does. -/
def NoBytes (line : List Char) : Prop :=
  ∃ word ∈ tokensOf line, ∀ digits, ¬ Leads word digits

/-- A monitor that dumps the bytes a command asks for as it finds them, in any
rows, and that fails or says so in words where one of them is missing. -/
structure DumpsMemory (hmp : ω → String → ω × Result Json)
    (memory : ω → UInt64 → Option UInt8) : Prop where
  shows : ∀ world count current bytes, 0 < count → count ≤ chunkSize →
    readRange (atAddress (memory world)) current.toNat count = some bytes →
      ∃ text, (hmp world (String.ofList (xp count current))).2 =
          .ok (.string text) ∧
        Dump StrictToken text bytes
  misses : ∀ world count current, 0 < count → count ≤ chunkSize →
    readRange (atAddress (memory world)) current.toNat count = none →
      ∀ text, (hmp world (String.ofList (xp count current))).2 =
          .ok (.string text) →
        ∃ line ∈ dumpLines text.toList, NoBytes line

theorem DumpsMemory.decoded {hmp : ω → String → ω × Result Json}
    {memory : ω → UInt64 → Option UInt8} (monitor : DumpsMemory hmp memory)
    {world : ω} {count : Nat} {current : UInt64} {bytes : List UInt8}
    (positive : 0 < count) (small : count ≤ chunkSize)
    (read : readRange (atAddress (memory world)) current.toNat count =
      some bytes) :
    decodeChunk current count
      (hmp world (String.ofList (xp count current))).2 = .ok bytes := by
  obtain ⟨text, shown, dump⟩ :=
    monitor.shows world count current bytes positive small read
  rw [shown]
  refine parseHmpMemory_eq_ok.mpr ⟨?_, ⟨dump.colons, ?_⟩, readRange_length read⟩
  · simp only [chunkSize] at small
    omega
  · exact dump.tokens.imp fun _ _ strict => .inl strict

theorem DumpsMemory.refused {hmp : ω → String → ω × Result Json}
    {memory : ω → UInt64 → Option UInt8} (monitor : DumpsMemory hmp memory)
    {world : ω} {count : Nat} {current : UInt64}
    (positive : 0 < count) (small : count ≤ chunkSize)
    (read : readRange (atAddress (memory world)) current.toNat count = none) :
    ∃ error, decodeChunk current count
      (hmp world (String.ofList (xp count current))).2 = .error error := by
  cases decoded : decodeChunk current count
      (hmp world (String.ofList (xp count current))).2 with
  | error error => exact ⟨error, rfl⟩
  | ok bytes =>
      obtain ⟨json, answered, rest⟩ := bind_eq_ok.mp decoded
      obtain ⟨text, shown, parsed⟩ := bind_eq_ok.mp rest
      rw [okOr_eq_ok] at shown
      obtain rfl := Json.asStr_eq_some.mp shown
      obtain ⟨line, among, word, within, plain⟩ :=
        monitor.misses world count current positive small read text answered
      have dump := (parseHmpMemory_eq_ok.mp parsed).2.1
      have token : word ∈ dumpTokens text :=
        List.mem_flatMap.mpr ⟨line, among, within⟩
      obtain ⟨byte, accepted⟩ := exists_accepted dump.tokens word token
      obtain ⟨digits, leads⟩ := accepted.leads
      exact absurd leads (plain digits)

/-! A monitor that does so. -/

/-- How a dump is cut into rows, each with the address it is shown under. -/
structure DumpLayout where
  rows : UInt64 → List UInt8 → List (UInt64 × List UInt8)
  complete : ∀ address bytes, (rows address bytes).flatMap Prod.snd = bytes

def rowsOfEight (address : UInt64) (bytes : List UInt8) :
    List (UInt64 × List UInt8) :=
  if 0 < bytes.length then
    (address, bytes.take 8) :: rowsOfEight (address + 8) (bytes.drop 8)
  else []
termination_by bytes.length
decreasing_by rw [List.length_drop]; omega

/-- The layout of the monitor itself. -/
def eightPerRow : DumpLayout where
  rows := rowsOfEight
  complete := by
    intro address bytes
    induction lengths : bytes.length using Nat.strong_induction_on
      generalizing address bytes with
    | _ length induction =>
        subst lengths
        rw [rowsOfEight]
        split
        · rename_i positive
          rw [List.flatMap_cons, induction _ (by
            rw [List.length_drop]
            omega) _ _ rfl, List.take_append_drop]
        · rename_i empty
          exact (List.length_eq_zero_iff.mp (Nat.eq_zero_of_not_pos empty)).symm

def addressText (address : UInt64) : List Char :=
  let digits := Nat.toDigits 16 address.toNat
  List.replicate (16 - digits.length) '0' ++ digits

def byteToken (byte : UInt8) : List Char :=
  ['0', 'x', (byte.toNat / 16).digitChar, (byte.toNat % 16).digitChar]

def rowText (row : UInt64 × List UInt8) : List Char :=
  addressText row.1 ++ ':' :: (row.2.map byteToken).flatMap (' ' :: ·)

def linesText (rows : List (List Char)) : String :=
  String.ofList (rows.flatMap (· ++ ['\r', '\n']))

def dumpText (rows : List (UInt64 × List UInt8)) : String :=
  linesText (rows.map rowText)

/-- The row of an address that cannot be read. -/
def refusalText (address : UInt64) : String :=
  linesText [addressText address ++ ": Cannot access memory".toList]

example : dumpText [(0x1000, [0, 255]), (0x1002, [16])] =
    "0000000000001000: 0x00 0xff\r\n0000000000001002: 0x10\r\n" := by
  decide +kernel

/-- The count and the address that a command asks for. -/
def parseXp : List Char → Option (Nat × UInt64)
  | 'x' :: 'p' :: ' ' :: '/' :: rest =>
      match splitOnce 'b' rest with
      | some (count, 'x' :: ' ' :: '0' :: 'x' :: address) =>
          match (unsignedFromStr 10 count : Except String UInt64),
            (unsignedFromStr 16 address : Except String UInt64) with
          | .ok count, .ok address => some (count.toNat, address)
          | _, _ => none
      | _ => none
  | _ => none

/-- The monitor of a guest that runs on: each command finds the memory of its
own time. -/
def dumpingMonitor (layout : DumpLayout)
    (memory : Nat → UInt64 → Option UInt8) (time : Nat) (command : String) :
    Nat × Result Json :=
  (time + 1,
    match parseXp command.toList with
    | none => .ok (.string "unknown command\r\n")
    | some (count, address) =>
        match readRange (atAddress (memory time)) address.toNat count with
        | some bytes => .ok (.string (dumpText (layout.rows address bytes)))
        | none => .ok (.string (refusalText address)))

theorem digitOf_digitChar {digit : Nat} (small : digit < 16) :
    digitOf 16 digit.digitChar = some digit := by
  interval_cases digit <;> rfl

theorem byteToken_strict (byte : UInt8) : StrictToken (byteToken byte) byte := by
  have bound := byte.toNat_lt
  have high := digitOf_digitChar (show byte.toNat / 16 < 16 by omega)
  have low := digitOf_digitChar (show byte.toNat % 16 < 16 by omega)
  refine ⟨_, _, ⟨'x', 0, .inl rfl, rfl⟩, by simp, ?_, ?_⟩
  · simp [high, low]
  · simp only [valueFrom, high, low, Option.getD_some]
    change byte.toNat = _
    omega

theorem digitChar_plain {digit : Nat} (small : digit < 16) :
    isWhitespace digit.digitChar = false := by
  interval_cases digit <;> rfl

theorem byteToken_plain {byte : UInt8} {char : Char}
    (member : char ∈ byteToken byte) : isWhitespace char = false := by
  have bound := byte.toNat_lt
  simp only [byteToken, List.mem_cons, List.not_mem_nil, or_false] at member
  obtain rfl | rfl | rfl | rfl := member
  · rfl
  · rfl
  · exact digitChar_plain (by omega)
  · exact digitChar_plain (by omega)

theorem addressText_digits {address : UInt64} {char : Char}
    (member : char ∈ addressText address) : (digitOf 16 char).isSome := by
  obtain zero | digit := List.mem_append.mp member
  · rw [List.eq_of_mem_replicate zero]
    rfl
  · exact (denotes_toDigits (by decide : 1 < 16) le_rfl address).digits_only
      char digit

theorem addressText_plain (address : UInt64) {char : Char}
    (other : digitOf 16 char = none) : char ∉ addressText address := by
  intro member
  have digit := addressText_digits member
  rw [other] at digit
  contradiction

theorem tokensOf_rowText (row : UInt64 × List UInt8) :
    tokensOf (rowText row) = row.2.map byteToken := by
  have colon : ':' ∉ addressText row.1 := addressText_plain row.1 rfl
  rw [tokensOf, rowText, splitOnce_append colon]
  refine splitWhitespace_flatMap ?_ ?_ rfl
  · intro field member
    obtain ⟨byte, _, rfl⟩ := List.mem_map.mp member
    exact List.cons_ne_nil _ _
  · intro field member char within
    obtain ⟨byte, _, rfl⟩ := List.mem_map.mp member
    exact byteToken_plain within

/-- A line behind an address. -/
def Labelled (line : List Char) : Prop :=
  ∃ address rest, line = addressText address ++ ':' :: rest ∧ '\n' ∉ rest

theorem dumpLines_linesText {rows : List (List Char)}
    (labelled : ∀ line ∈ rows, Labelled line) :
    dumpLines (linesText rows).toList = rows := by
  have split : lines (linesText rows).toList = rows := by
    rw [linesText, String.toList_ofList]
    apply lines_flatMap_return
    intro line member within
    obtain ⟨address, rest, rfl, single⟩ := labelled line member
    rw [List.mem_append, List.mem_cons] at within
    obtain label | colon | within := within
    · exact addressText_plain address rfl label
    · contradiction
    · exact single within
  rw [dumpLines, split, List.filter_eq_self]
  intro line member
  obtain ⟨address, rest, rfl, _⟩ := labelled line member
  obtain ⟨first, others, textEq⟩ : ∃ first others, addressText address =
      first :: others := by
    refine List.exists_cons_of_ne_nil ?_
    rw [addressText, Ne, List.append_eq_nil_iff]
    exact fun empty => Nat.toDigits_ne_nil empty.2
  have digit : (digitOf 16 first).isSome :=
    addressText_digits (by rw [textEq]; exact List.mem_cons_self)
  have shown : isWhitespace first = false := by
    have bounds := digitOf_bounds digit
    simp only [isWhitespace, Bool.or_eq_false_iff, Bool.and_eq_false_iff,
      decide_eq_false_iff_not, beq_eq_false_iff_ne]
    omega
  rw [textEq]
  simpa using trim_ne_nil shown _

theorem rowText_labelled (row : UInt64 × List UInt8) :
    Labelled (rowText row) := by
  refine ⟨row.1, _, rfl, ?_⟩
  intro member
  obtain ⟨token, given, within⟩ := List.mem_flatMap.mp member
  obtain ⟨byte, _, rfl⟩ := List.mem_map.mp given
  obtain blank | within := List.mem_cons.mp within
  · contradiction
  · have plain := byteToken_plain within
    contradiction

theorem dumpLines_dumpText (rows : List (UInt64 × List UInt8)) :
    dumpLines (dumpText rows).toList = rows.map rowText := by
  apply dumpLines_linesText
  intro line member
  obtain ⟨row, _, rfl⟩ := List.mem_map.mp member
  exact rowText_labelled row

theorem dump_dumpText (layout : DumpLayout) (address : UInt64)
    (bytes : List UInt8) :
    Dump StrictToken (dumpText (layout.rows address bytes)) bytes := by
  constructor
  · intro line member
    rw [dumpLines_dumpText] at member
    obtain ⟨row, _, rfl⟩ := List.mem_map.mp member
    exact List.mem_append_right _ List.mem_cons_self
  · have tokens : dumpTokens (dumpText (layout.rows address bytes)) =
        bytes.map byteToken := by
      rw [dumpTokens, dumpLines_dumpText, List.flatMap_map]
      simp only [tokensOf_rowText]
      rw [← List.map_flatMap, layout.complete]
    rw [tokens, List.forall₂_map_left_iff]
    exact List.forall₂_same.mpr fun byte _ => byteToken_strict byte

theorem parseXp_xp {count : Nat} (small : count < 2 ^ 64) (address : UInt64) :
    parseXp (String.ofList (xp count address)).toList =
      some (count, address) := by
  have countEq : (UInt64.ofNat count).toNat = count :=
    UInt64.toNat_ofNat_of_lt' small
  have countDenotes : Denotes 10 (Nat.toDigits 10 count)
      (UInt64.ofNat count) := by
    have printed := denotes_toDigits (by decide : 1 < 10) (by decide : 10 ≤ 16)
      (UInt64.ofNat count)
    rwa [unsigned_toNat_uint64, countEq] at printed
  have addressDenotes := denotes_toDigits (by decide : 1 < 16)
    (by decide : 16 ≤ 16) address
  have letter : 'b' ∉ Nat.toDigits 10 count := by
    intro member
    have digit := countDenotes.digits_only 'b' member
    contradiction
  have countRead : (unsignedFromStr 10 (Nat.toDigits 10 count) :
      Except String UInt64) = .ok (UInt64.ofNat count) :=
    (unsignedFromStr_eq_ok (by decide) (by decide) _ _).mpr (.inl countDenotes)
  have addressRead : (unsignedFromStr 16 (Nat.toDigits 16 address.toNat) :
      Except String UInt64) = .ok address :=
    (unsignedFromStr_eq_ok (by decide) (by decide) _ _).mpr
      (.inl addressDenotes)
  rw [String.toList_ofList, xp]
  change parseXp ('x' :: 'p' :: ' ' :: '/' :: (Nat.toDigits 10 count ++ 'b' ::
    ('x' :: ' ' :: '0' :: 'x' :: Nat.toDigits 16 address.toNat))) = _
  simp only [parseXp, splitOnce_append letter, countRead, addressRead, countEq]

theorem refusalText_noBytes (address : UInt64) :
    ∃ line ∈ dumpLines (refusalText address).toList, NoBytes line := by
  have colon : ':' ∉ addressText address := addressText_plain address rfl
  have single : dumpLines (refusalText address).toList =
      [addressText address ++ ": Cannot access memory".toList] := by
    apply dumpLines_linesText
    intro line member
    rw [List.mem_singleton] at member
    exact ⟨address, " Cannot access memory".toList, member, by decide⟩
  rw [single]
  refine ⟨_, List.mem_cons_self, "Cannot".toList, ?_, ?_⟩
  · change _ ∈ tokensOf (addressText address ++ ':' ::
      " Cannot access memory".toList)
    rw [tokensOf, splitOnce_append colon]
    change _ ∈ splitWhitespace " Cannot access memory".toList
    decide
  · rintro digits ⟨mark, commas, _, same⟩
    cases same

theorem dumpingMonitor_dumpsMemory (layout : DumpLayout)
    (memory : Nat → UInt64 → Option UInt8) :
    DumpsMemory (dumpingMonitor layout memory) memory where
  shows := by
    intro time count current bytes _ small read
    refine ⟨dumpText (layout.rows current bytes), ?_, dump_dumpText ..⟩
    rw [dumpingMonitor, parseXp_xp (by simp only [chunkSize] at small; omega)]
    simp only [read]
  misses := by
    intro time count current _ small read text answered
    rw [dumpingMonitor, parseXp_xp (by simp only [chunkSize] at small; omega)]
      at answered
    simp only [read, Except.ok.injEq, Json.string.injEq] at answered
    subst answered
    exact refusalText_noBytes current

/-! Reads over a monitor that dumps memory. -/

section Step

variable {hmp : ω → String → ω × Result Json} {address : Gpa}
  {total index count : Nat} (lengths : List Nat) {world next : ω}
  {current : UInt64} {command : String} {response : Result Json}

theorem readChunks_next {bytes : List UInt8}
    (planned : chunkCommand address total index count = .ok (current, command))
    (asked : hmp world command = (next, response))
    (decoded : decodeChunk current count response = .ok bytes) :
    (readChunks hmp address total index (count :: lengths) world).1 =
        (readChunks hmp address total (index + 1) lengths next).1 ∧
      (readChunks hmp address total index (count :: lengths) world).2.map
          Subtype.val =
        (readChunks hmp address total (index + 1) lengths next).2.map
          fun others => bytes ++ others.val := by
  rw [readChunks]
  simp only [planned, asked]
  split
  · rename_i failed
    rw [asked, decoded] at failed
    cases failed
  · rename_i same
    rw [asked, decoded] at same
    cases same
    refine ⟨rfl, ?_⟩
    cases (readChunks hmp address total (index + 1) lengths next).2 <;> rfl

theorem readChunks_stop {error : VmiError}
    (planned : chunkCommand address total index count = .ok (current, command))
    (asked : hmp world command = (next, response))
    (failed : decodeChunk current count response = .error error) :
    readChunks hmp address total index (count :: lengths) world =
      (next, .error error) := by
  rw [readChunks]
  simp only [planned, asked]
  split
  · rename_i same
    rw [asked, failed] at same
    cases same
    rfl
  · rename_i decoded
    rw [asked, failed] at decoded
    cases decoded

end Step

section Reads

variable {hmp : ω → String → ω × Result Json}
  {memory : ω → UInt64 → Option UInt8}

/-- The world that the next commands of a read find, each of a chunk. -/
def worldAfter (hmp : ω → String → ω × Result Json) (world : ω)
    (base left : Nat) : (commands : Nat) → ω
  | 0 => world
  | commands + 1 =>
      worldAfter hmp
        (hmp world (String.ofList
          (xp (min chunkSize left) (UInt64.ofNat base)))).1
        (base + chunkSize) (left - chunkSize) commands

/-- What the bytes from an address on were, each in the world that the command
of its chunk finds. -/
def seenFrom (hmp : ω → String → ω × Result Json)
    (memory : ω → UInt64 → Option UInt8) (world : ω) (base left offset : Nat) :
    Option UInt8 :=
  atAddress (memory (worldAfter hmp world base left (offset / chunkSize)))
    (base + offset)

theorem seenFrom_first {world : ω} {base left offset : Nat}
    (within : offset < chunkSize) :
    seenFrom hmp memory world base left offset =
      atAddress (memory world) (base + offset) := by
  rw [seenFrom, Nat.div_eq_of_lt within, worldAfter]

theorem next_chunk (offset : Nat) :
    (chunkSize + offset) / chunkSize = offset / chunkSize + 1 :=
  Nat.add_div_left offset (by decide)

theorem seenFrom_next (world : ω) (base left offset : Nat) :
    seenFrom hmp memory world base left (chunkSize + offset) =
      seenFrom hmp memory
        (hmp world (String.ofList
          (xp (min chunkSize left) (UInt64.ofNat base)))).1
        (base + chunkSize) (left - chunkSize) offset := by
  rw [seenFrom, seenFrom, next_chunk, worldAfter, Nat.add_assoc]

/-- What asking for the rest of a read can come to. -/
inductive Pieces (hmp : ω → String → ω × Result Json)
    (memory : ω → UInt64 → Option UInt8) (world : ω) (base left : Nat) :
    ω → Result (List UInt8) → Prop
  | whole (bytes : List UInt8) (all : bytes.length = left)
      (seen : ∀ offset < left,
        seenFrom hmp memory world base left offset = bytes[offset]?) :
      Pieces hmp memory world base left
        (worldAfter hmp world base left ((left + 255) / chunkSize)) (.ok bytes)
  | absent {error : VmiError} (offset commands : Nat) (within : offset < left)
      (missing : seenFrom hmp memory world base left offset = none)
      (stopped : commands = offset / chunkSize ∨
        commands = offset / chunkSize + 1) :
      Pieces hmp memory world base left
        (worldAfter hmp world base left commands) (.error error)

theorem Pieces.carry {world last : ω} {base left : Nat} {bytes : List UInt8}
    {result : Result (List UInt8)} (positive : 0 < left)
    (read : readRange (atAddress (memory world)) base (min chunkSize left) =
      some bytes)
    (rest : Pieces hmp memory
      (hmp world (String.ofList (xp (min chunkSize left) (UInt64.ofNat base)))).1
      (base + chunkSize) (left - chunkSize) last result) :
    Pieces hmp memory world base left last (result.map (bytes ++ ·)) := by
  obtain ⟨count, each⟩ := readRange_eq_some.mp read
  have positiveChunk : chunkSize = 256 := rfl
  cases rest with
  | whole more all seen =>
      have lengths : (bytes ++ more).length = left := by
        rw [List.length_append]
        omega
      have seenAll : ∀ offset < left,
          seenFrom hmp memory world base left offset =
            (bytes ++ more)[offset]? := by
        intro offset below
        by_cases first : offset < bytes.length
        · rw [seenFrom_first (by omega), List.getElem?_append_left first]
          exact each offset (by omega)
        · obtain ⟨later, rfl⟩ : ∃ later, offset = chunkSize + later :=
            ⟨offset - chunkSize, by omega⟩
          rw [seenFrom_next, seen later (by omega),
            List.getElem?_append_right (by omega)]
          congr 1
          omega
      have joined := Pieces.whole (bytes ++ more) lengths seenAll
      have steps : (left + 255) / chunkSize =
          (left - chunkSize + 255) / chunkSize + 1 := by
        simp only [chunkSize] at lengths ⊢
        omega
      rwa [steps, worldAfter] at joined
  | @absent error offset commands within missing stopped =>
      have absent : Pieces hmp memory world base left
          (worldAfter hmp world base left (commands + 1)) (.error error) :=
        .absent (chunkSize + offset) (commands + 1) (by omega)
          ((seenFrom_next ..).trans missing) (by rw [next_chunk]; omega)
      rwa [worldAfter] at absent

theorem readChunks_pieces (monitor : DumpsMemory hmp memory) (address : Gpa)
    (total : Nat) (index left : Nat) (world : ω) :
    Pieces hmp memory world (address.raw.toNat + index * chunkSize) left
      (readChunks hmp address total index (chunkLengths left) world).1
      ((readChunks hmp address total index (chunkLengths left) world).2.map
        Subtype.val) := by
  have size : chunkSize = 256 := rfl
  induction left using Nat.strong_induction_on generalizing index world with
  | _ left induction =>
      rcases Nat.eq_zero_or_pos left with rfl | positive
      · rw [chunkLengths_zero]
        exact .whole [] rfl (by simp)
      · rw [chunkLengths_positive positive]
        by_cases inside : address.raw.toNat + index * chunkSize < 2 ^ 64
        · have currentEq : (UInt64.ofNat
              (address.raw.toNat + index * chunkSize)).toNat = _ :=
            UInt64.toNat_ofNat_of_lt' inside
          have planned := chunkCommand_inside total (min chunkSize left) currentEq
          have asked := (Prod.eta (hmp world (String.ofList (xp (min chunkSize
            left) (UInt64.ofNat (address.raw.toNat + index * chunkSize)))))).symm
          have chunkPositive : 0 < min chunkSize left := by omega
          have chunkSmall : min chunkSize left ≤ chunkSize := Nat.min_le_left ..
          cases read : readRange (atAddress (memory world))
              (address.raw.toNat + index * chunkSize) (min chunkSize left) with
          | some bytes =>
              have decoded := monitor.decoded chunkPositive chunkSmall
                (by rwa [currentEq])
              obtain ⟨worldEq, resultEq⟩ :=
                readChunks_next (chunkLengths (left - chunkSize)) planned asked
                  decoded
              rw [worldEq, resultEq]
              have rest := induction (left - chunkSize) (by omega) (index + 1)
                (hmp world (String.ofList (xp (min chunkSize left) (UInt64.ofNat
                  (address.raw.toNat + index * chunkSize))))).1
              rw [Nat.add_mul, Nat.one_mul, ← Nat.add_assoc] at rest
              have carried := rest.carry positive read
              generalize (readChunks hmp address total (index + 1)
                (chunkLengths (left - chunkSize)) _).2 = others at carried ⊢
              cases others <;> exact carried
          | none =>
              rw [← currentEq] at read
              obtain ⟨error, failed⟩ :=
                monitor.refused chunkPositive chunkSmall read
              rw [currentEq] at read
              rw [readChunks_stop _ planned asked failed]
              obtain ⟨offset, below, absent⟩ := readRange_eq_none read
              exact .absent offset 1 (by omega)
                (by rw [seenFrom_first (by omega), absent])
                (.inr (by rw [Nat.div_eq_of_lt (by omega)]))
        · rw [readChunks, chunkCommand_outside (Nat.not_lt.mp inside)]
          exact .absent 0 0 positive
            (by
              rw [seenFrom_first (by omega)]
              exact atAddress_of_le _ (Nat.not_lt.mp inside))
            (.inl (Nat.zero_div _).symm)

theorem Pieces.ok_iff {world last : ω} {base left : Nat}
    {result : Result (List UInt8)}
    (pieces : Pieces hmp memory world base left last result)
    (out : List UInt8) :
    result = .ok out ↔ out.length = left ∧
      ∀ offset < left,
        seenFrom hmp memory world base left offset = out[offset]? := by
  cases pieces with
  | whole bytes all seen =>
      rw [Except.ok.injEq]
      constructor
      · rintro rfl
        exact ⟨all, seen⟩
      · rintro ⟨lengths, same⟩
        refine List.ext_getElem? fun offset => ?_
        by_cases within : offset < left
        · rw [← seen offset within, same offset within]
        · rw [List.getElem?_eq_none (by omega),
            List.getElem?_eq_none (by omega)]
  | absent offset commands within missing _ =>
      simp only [reduceCtorEq, false_iff]
      rintro ⟨lengths, same⟩
      have there := same offset within
      rw [missing, List.getElem?_eq_getElem (by omega)] at there
      contradiction

theorem readInto_pieces (monitor : DumpsMemory hmp memory) (world : ω)
    (address : Gpa) (length : Nat) :
    Pieces hmp memory world address.raw.toNat length
      (readInto hmp world address length).1
      ((readInto hmp world address length).2.map Subtype.val) := by
  have pieces := readChunks_pieces monitor address length 0 length world
  rw [Nat.zero_mul, Nat.add_zero] at pieces
  rw [readInto]
  generalize readChunks hmp address length 0 (chunkLengths length) world =
    outcome at pieces ⊢
  obtain ⟨last, result⟩ := outcome
  cases result <;> exact pieces

theorem map_val_eq_ok {length : Nat}
    {result : Result { buffer : List UInt8 // buffer.length = length }}
    {out : List UInt8} :
    result.map Subtype.val = .ok out ↔
      ∃ buffer, result = .ok buffer ∧ buffer.val = out := by
  cases result with
  | error error => simp [Except.map]
  | ok buffer => simp [Except.map]

theorem worldAfter_rests (rests : ∀ world command,
      memory (hmp world command).1 = memory world) (world : ω)
    (base left commands : Nat) :
    memory (worldAfter hmp world base left commands) = memory world := by
  induction commands generalizing world base left with
  | zero => rfl
  | succ commands induction => rw [worldAfter, induction, rests]

/-- A read over a guest that runs on shows each piece of 256 bytes as the
command for it finds the memory, and of one time only the pieces are. It issues
one command for each piece, stops at the first that shows a byte missing, and
over a guest that rests it shows the memory. -/
theorem physical_read_pieces (monitor : DumpsMemory hmp memory) (world : ω)
    (address : Gpa) (length : Nat) :
    (∀ out,
        (∃ buffer, (readInto hmp world address length).2 = .ok buffer ∧
            buffer.val = out) ↔
          out.length = length ∧ ∀ offset < length,
            atAddress (memory (worldAfter hmp world address.raw.toNat length
                (offset / 256))) (address.raw.toNat + offset) =
              out[offset]?) ∧
      ((∃ buffer, (readInto hmp world address length).2 = .ok buffer) →
        (readInto hmp world address length).1 =
          worldAfter hmp world address.raw.toNat length
            ((length + 255) / 256)) ∧
      (∀ error, (readInto hmp world address length).2 = .error error →
        ∃ offset < length,
          atAddress (memory (worldAfter hmp world address.raw.toNat length
              (offset / 256))) (address.raw.toNat + offset) = none ∧
            ∃ commands ≤ offset / 256 + 1,
              (readInto hmp world address length).1 =
                worldAfter hmp world address.raw.toNat length commands) ∧
      ((∀ world command, memory (hmp world command).1 = memory world) →
        HoldsBytes ⟨fun place size => (readInto hmp world place size).2⟩
          (memory world)) := by
  have pieces := readInto_pieces monitor world address length
  refine ⟨?_, ?_, ?_, ?_⟩
  · intro out
    rw [← map_val_eq_ok, pieces.ok_iff]
    rfl
  · rintro ⟨buffer, read⟩
    rw [read] at pieces
    generalize (readInto hmp world address length).1 = last at pieces ⊢
    cases pieces with
    | whole bytes all seen => rfl
  · intro error failed
    rw [failed] at pieces
    generalize (readInto hmp world address length).1 = last at pieces ⊢
    cases pieces with
    | absent offset commands within missing stopped =>
        refine ⟨offset, within, missing, commands, ?_, rfl⟩
        change commands ≤ offset / chunkSize + 1
        omega
  · intro rests place size out
    have still := readInto_pieces monitor world place size
    change ((readInto hmp world place size).2 >>=
      fun buffer => .ok buffer.val) = .ok out ↔ _
    have whole := still.ok_iff out
    rw [readRange_eq_some]
    simp only [seenFrom, worldAfter_rests rests] at whole
    rw [← whole]
    cases (readInto hmp world place size).2 <;> rfl

end Reads

/-- Memory in which every byte is the time. -/
def ageing (time : Nat) (_ : UInt64) : Option UInt8 :=
  some (UInt8.ofNat time)

theorem worldAfter_dumpingMonitor (layout : DumpLayout)
    (memory : Nat → UInt64 → Option UInt8) (time base left commands : Nat) :
    worldAfter (dumpingMonitor layout memory) time base left commands =
      time + commands := by
  induction commands generalizing time base left with
  | zero => rfl
  | succ commands induction =>
      rw [worldAfter, induction, dumpingMonitor]
      omega

/-- The second piece of a read is newer than the first. -/
theorem physical_read_pieces_of_two_times :
    ∃ buffer, (readInto (dumpingMonitor eightPerRow ageing) 0 ⟨0x1000⟩ 300).2 =
        .ok buffer ∧
      buffer.val = List.replicate 256 0 ++ List.replicate 44 1 := by
  have monitor := dumpingMonitor_dumpsMemory eightPerRow ageing
  refine ((physical_read_pieces monitor 0 ⟨0x1000⟩ 300).1 _).mpr
    ⟨by rw [List.length_append, List.length_replicate, List.length_replicate],
      ?_⟩
  intro offset within
  have addressEq : (UInt64.ofNat (0x1000 + offset)).toNat = 0x1000 + offset :=
    UInt64.toNat_ofNat_of_lt' (by simp only [UInt64.size]; omega)
  change atAddress _ (0x1000 + offset) = _
  rw [worldAfter_dumpingMonitor, Nat.zero_add, atAddress_toNat _ addressEq]
  by_cases first : offset < 256
  · rw [List.getElem?_append_left (by rwa [List.length_replicate]),
      List.getElem?_replicate_of_lt first, ageing, Nat.div_eq_of_lt first]
    rfl
  · have second : offset / 256 = 1 := by omega
    rw [List.getElem?_append_right
        (by rw [List.length_replicate]; exact Nat.not_lt.mp first),
      List.length_replicate, List.getElem?_replicate_of_lt (by omega), ageing,
      second]
    rfl

end LibVmi.Qemu
