import LibVmi.Data.Words
import LibVmi.Qemu.Qmp

namespace LibVmi.Qemu

open Data

/-! The debug stub client. A request is a packet with a checksum, and the stub
answers each with an acknowledgement and a packet of its own. Nothing in an
answer says which request it is for. -/

def gdbPacketCapacity : Nat := 1024 * 1024

namespace Gdb

/-! Packets, as bytes. -/

def plus : UInt8 := 43

def dollar : UInt8 := 36

def hash : UInt8 := 35

def hexDigit (nibble : UInt8) : UInt8 :=
  if nibble < 10 then 48 + nibble else 97 + (nibble - 10)

def hexByte (byte : UInt8) : List UInt8 :=
  [hexDigit (byte >>> 4), hexDigit (byte &&& 0xf)]

def checksum (payload : List UInt8) : UInt8 :=
  payload.foldl (· + ·) 0

def packet (payload : List UInt8) : List UInt8 :=
  dollar :: (payload ++ hash :: hexByte (checksum payload))

/-- What a stub sends for a request: the acknowledgement and its packet. -/
def answer (payload : List UInt8) : List UInt8 :=
  plus :: packet payload

/-- Lower-case digits without leading zeros, as `{:x}` writes them. -/
def hexNumber (value : Nat) : List UInt8 :=
  (Nat.toDigits 16 value).map fun digit => UInt8.ofNat digit.toNat

/-! Register values. -/

def hexNibble (value : UInt8) : Option UInt8 :=
  if 48 ≤ value ∧ value ≤ 57 then some (value - 48)
  else if 97 ≤ value ∧ value ≤ 102 then some (value - 97 + 10)
  else if 65 ≤ value ∧ value ≤ 70 then some (value - 65 + 10)
  else none

def encodeLittleHex (value : UInt64) (width : Nat) : Result (List UInt8) := do
  rejectIf (8 < width)
    (.backend s!"invalid GDB register width: {width} bytes")
  return ((toLe 8 value.toNat).take width).flatMap hexByte

/-- The pairs of digits from a position on. -/
def decodePairs : (position : Nat) → List UInt8 → Result (List UInt8)
  | position, highByte :: lowByte :: rest =>
      match hexNibble highByte, hexNibble lowByte with
      | some high, some low => do
          let bytes ← decodePairs (position + 2) rest
          return ((high <<< 4) ||| low) :: bytes
      | _, _ =>
          .error (.backend s!"invalid GDB register hex at byte {position}")
  | _, _ => .ok []

def decodeLittleHex (value : List UInt8) (width : Nat) : Result UInt64 := do
  rejectIf (8 < width ∨ Usize.checkedMul width 2 ≠ some value.length)
    (.backend s!"invalid GDB register width: {value.length} hex digits")
  let bytes ← decodePairs 0 value
  return UInt64.ofNat (fromLe bytes)

/-! Reading from the socket. The host decides each read: the time, the report of
`set_read_timeout`, and how much comes in time. Reads take their turns one after
the other, and a call is still waiting when they are used up. -/

inductive Arrival where
  /-- At most this many bytes come before the read times out. -/
  | inTime (count : Nat)
  | failed (count : Nat) (error : String)
  deriving DecidableEq, Repr

structure ReadTurn where
  now : Nat
  setReadTimeout : Nat → Result Unit
  arrival : Arrival

structure Socket where
  turns : List ReadTurn
  inbound : List UInt8

def Reading (α : Type) : Type :=
  Socket → Option (Result α) × Socket

namespace Reading

protected def bind (first : Reading α) (next : α → Reading β) : Reading β :=
  fun socket =>
    match first socket with
    | (some (.ok value), socket) => next value socket
    | (some (.error error), socket) => (some (.error error), socket)
    | (none, socket) => (none, socket)

instance : Monad Reading where
  pure := fun value socket => (some (.ok value), socket)
  bind := Reading.bind

/-- A step that does not read. -/
def report (result : Result α) : Reading α :=
  fun socket => (some result, socket)

theorem bind_eq_ok {first : Reading α} {next : α → Reading β}
    {socket final : Socket} {result : β} :
    (first >>= next) socket = (some (.ok result), final) ↔
      ∃ value middle, first socket = (some (.ok value), middle) ∧
        next value middle = (some (.ok result), final) := by
  change Reading.bind first next socket = _ ↔ _
  unfold Reading.bind
  constructor
  · intro returned
    split at returned
    · rename_i value middle read
      exact ⟨value, middle, read, returned⟩
    · simp at returned
    · simp at returned
  · intro given
    obtain ⟨value, middle, read, returned⟩ := given
    rw [read]
    exact returned

@[simp] theorem report_eq_ok {outcome : Result α} {socket final : Socket}
    {result : α} :
    report outcome socket = (some (.ok result), final) ↔
      outcome = .ok result ∧ final = socket := by
  simp [report, eq_comm]

@[simp] theorem pure_eq_ok {value result : α} {socket final : Socket} :
    (pure value : Reading α) socket = (some (.ok result), final) ↔
      value = result ∧ final = socket := by
  change (some (Except.ok value), socket) = _ ↔ _
  simp [eq_comm]

end Reading

def readExactBefore (deadline : Option Nat) (length : Nat) (phase : String) :
    Reading (List UInt8) := fun socket =>
  match socket.turns with
  | [] => (none, socket)
  | turn :: turns =>
      match remaining deadline turn.now with
      | none => (some (.error (.timeout phase)), ⟨turns, socket.inbound⟩)
      | some wait =>
          match turn.setReadTimeout wait with
          | .error error => (some (.error error), ⟨turns, socket.inbound⟩)
          | .ok () =>
              match turn.arrival with
              | .failed count error =>
                  (some (.error (.backend error)),
                    ⟨turns, socket.inbound.drop (min count length)⟩)
              | .inTime count =>
                  if length ≤ count ∧ length ≤ socket.inbound.length then
                    (some (.ok (socket.inbound.take length)),
                      ⟨turns, socket.inbound.drop length⟩)
                  else
                    (some (.error (.timeout phase)),
                      ⟨turns, socket.inbound.drop (min count length)⟩)

/-- A read that succeeds takes its bytes off the front. -/
theorem readExactBefore_ok {deadline : Option Nat} {length : Nat}
    {phase : String} {socket final : Socket} {bytes : List UInt8}
    (read : readExactBefore deadline length phase socket =
      (some (.ok bytes), final)) :
    bytes.length = length ∧ socket.inbound = bytes ++ final.inbound := by
  unfold readExactBefore at read
  split at read
  · simp at read
  · split at read
    · simp at read
    · split at read
      · simp at read
      · split at read
        · simp at read
        · split at read
          · rename_i bounds
            simp only [Prod.mk.injEq, Option.some.injEq, Except.ok.injEq]
              at read
            obtain ⟨rfl, rfl⟩ := read
            rw [List.length_take, List.take_append_drop]
            exact ⟨by omega, rfl⟩
          · simp at read

/-! One command. -/

/-- What becomes of a request: it reaches the stub, or writing it fails before
or after that. -/
inductive WriteReport where
  | sent
  | lost (error : String)
  | sentFailed (error : String)
  deriving DecidableEq, Repr

def WriteReport.result : WriteReport → Result Unit
  | .sent => .ok ()
  | .lost error => .error (.backend error)
  | .sentFailed error => .error (.backend error)

def WriteReport.reaches : WriteReport → Bool
  | .lost _ => false
  | _ => true

/-- What the host gives one call of `command`. -/
structure Attempt where
  start : Nat
  write : List UInt8 → WriteReport
  turns : List ReadTurn
  acknowledge : Result Unit
  utf8Error : List UInt8 → String

def rejected : VmiError :=
  .backend "GDB server rejected packet"

/-- Skips what precedes a packet. -/
def awaitStart (deadline : Option Nat) : (reads : Nat) → Reading Unit
  | 0 => fun socket => (none, socket)
  | reads + 1 => do
      let byte ← readExactBefore deadline 1 "GDB response start"
      if byte = [dollar] then pure () else awaitStart deadline reads

def readPayload (deadline : Option Nat) :
    (reads : Nat) → (response : List UInt8) → Reading (List UInt8)
  | 0, _ => fun socket => (none, socket)
  | reads + 1, response => do
      let byte ← readExactBefore deadline 1 "GDB response payload"
      if byte = [hash] then pure response
      else if response.length = gdbPacketCapacity then
        .report (.error (.backend
          s!"GDB response exceeds {gdbPacketCapacity} bytes"))
      else readPayload deadline reads (response ++ byte)

def fromUtf8 (bytes : List UInt8) (error : String) : Result String :=
  okOr (String.fromUTF8? ⟨bytes.toArray⟩) (.backend error)

def textBytes (text : String) : List UInt8 :=
  text.toUTF8.data.toList

def parseChecksum (attempt : Attempt) (digits : List UInt8) :
    Result UInt64 := do
  let text ← fromUtf8 digits (attempt.utf8Error digits)
  (fromStrRadix 16 text.toList).mapError VmiError.backend

/-- The part of `command` after the request is written. -/
def receiveReply (attempt : Attempt) (deadline : Option Nat) :
    Reading String := do
  let byte ← readExactBefore deadline 1 "GDB acknowledgement"
  .report (rejectIf (byte ≠ [plus]) rejected)
  awaitStart deadline attempt.turns.length
  let response ← readPayload deadline attempt.turns.length []
  let digits ← readExactBefore deadline 2 "GDB response checksum"
  let expected ← .report (parseChecksum attempt digits)
  .report (rejectIf (expected.toNat ≠ (checksum response).toNat)
    (.backend "GDB response checksum mismatch"))
  .report attempt.acknowledge
  let text ← .report (fromUtf8 response (attempt.utf8Error response))
  .report (rejectIf (response.head? = some 69)
    (.backend s!"GDB command failed: {text}"))
  return text

/-- The connection: the requests that reached the stub, and what it sent that
is not read yet. -/
structure Wire where
  packets : List (List UInt8)
  inbound : List UInt8
  deriving DecidableEq, Repr

/-- A stub that answers every request, by all that has reached it. -/
def Wire.deliver (peer : List (List UInt8) → List UInt8) (wire : Wire)
    (payload : List UInt8) : Wire :=
  let packets := wire.packets ++ [payload]
  ⟨packets, wire.inbound ++ answer (peer packets)⟩

def command (peer : List (List UInt8) → List UInt8) (timeout : Nat)
    (attempt : Attempt) (payload : List UInt8) (wire : Wire) :
    Option (Result String) × Wire :=
  let deadline := deadlineAfter attempt.start timeout
  let report := attempt.write (packet payload)
  let wire := if report.reaches then wire.deliver peer payload else wire
  match report.result with
  | .error error => (some (.error error), wire)
  | .ok () =>
      let (result, socket) := receiveReply attempt deadline
        ⟨attempt.turns, wire.inbound⟩
      (result, { wire with inbound := socket.inbound })

/-! What a command returns when nothing was left to be read before it. -/

theorem textBytes_of_fromUtf8 {bytes : List UInt8} {error text : String}
    (decoded : fromUtf8 bytes error = .ok text) : textBytes text = bytes := by
  rw [fromUtf8, okOr_eq_ok, String.fromUTF8?] at decoded
  split at decoded
  · rw [← Option.some.inj decoded]
    rfl
  · contradiction

/-- One byte that is read is the next. -/
theorem readByte_ok {deadline : Option Nat} {phase : String}
    {socket final : Socket} {bytes : List UInt8} {next : UInt8}
    {rest : List UInt8} (inbound : socket.inbound = next :: rest)
    (read : readExactBefore deadline 1 phase socket =
      (some (.ok bytes), final)) : bytes = [next] ∧ final.inbound = rest := by
  obtain ⟨length, split⟩ := readExactBefore_ok read
  obtain ⟨byte, rfl⟩ := List.length_eq_one_iff.mp length
  rw [inbound] at split
  obtain ⟨rfl, rfl⟩ := List.cons.inj split
  exact ⟨rfl, rfl⟩

theorem awaitStart_ok {deadline : Option Nat} {reads : Nat}
    {socket final : Socket} {rest : List UInt8}
    (inbound : socket.inbound = dollar :: rest)
    (started : awaitStart deadline reads socket = (some (.ok ()), final)) :
    final.inbound = rest := by
  cases reads with
  | zero => simp [awaitStart] at started
  | succ reads =>
      obtain ⟨byte, middle, read, started⟩ := Reading.bind_eq_ok.mp started
      obtain ⟨rfl, advanced⟩ := readByte_ok inbound read
      rw [if_pos rfl, Reading.pure_eq_ok] at started
      rw [started.2, advanced]

/-- The payload ends at the first mark. -/
theorem readPayload_ok {deadline : Option Nat} {reads : Nat}
    {socket final : Socket} {body rest response result : List UInt8}
    (within : hash ∉ body) (inbound : socket.inbound = body ++ hash :: rest)
    (read : readPayload deadline reads response socket =
      (some (.ok result), final)) :
    result = response ++ body ∧ final.inbound = rest := by
  induction reads generalizing socket body response with
  | zero => simp [readPayload] at read
  | succ reads induction =>
      obtain ⟨byte, middle, byteRead, read⟩ := Reading.bind_eq_ok.mp read
      cases body with
      | nil =>
          obtain ⟨rfl, advanced⟩ := readByte_ok inbound byteRead
          rw [if_pos rfl, Reading.pure_eq_ok] at read
          obtain ⟨rfl, rfl⟩ := read
          exact ⟨(List.append_nil _).symm, advanced⟩
      | cons first body =>
          rw [List.mem_cons, not_or] at within
          obtain ⟨rfl, advanced⟩ := readByte_ok inbound byteRead
          have continues : ¬ [first] = [hash] := fun same =>
            within.1 (List.cons.inj same).1.symm
          rw [if_neg continues] at read
          split at read
          · simp at read
          · obtain ⟨rfl, left⟩ := induction within.2 advanced read
            exact ⟨by rw [List.append_assoc, List.singleton_append], left⟩

theorem receiveReply_ok {attempt : Attempt} {deadline : Option Nat}
    {socket final : Socket} {payload : List UInt8} {text : String}
    (within : hash ∉ payload) (inbound : socket.inbound = answer payload)
    (received : receiveReply attempt deadline socket =
      (some (.ok text), final)) :
    textBytes text = payload ∧ final.inbound = [] := by
  simp only [receiveReply, Reading.bind_eq_ok, Reading.report_eq_ok,
    Reading.pure_eq_ok] at received
  obtain ⟨byte, first, acknowledged, _, _, ⟨_, rfl⟩, _, second, started,
    response, third, payloadRead, digits, fourth, digitsRead, rest⟩ := received
  obtain ⟨_, afterPlus⟩ := readByte_ok inbound acknowledged
  have afterStart := awaitStart_ok afterPlus started
  obtain ⟨rfl, afterPayload⟩ := readPayload_ok within afterStart payloadRead
  obtain ⟨digitCount, split⟩ := readExactBefore_ok digitsRead
  have used : fourth.inbound = [] := by
    rw [afterPayload] at split
    have lengths := congrArg List.length split
    rw [List.length_append, digitCount] at lengths
    simp only [hexByte, List.length_cons, List.length_nil] at lengths
    exact List.length_eq_zero_iff.mp (by omega)
  obtain ⟨_, _, ⟨_, rfl⟩, _, _, ⟨_, rfl⟩, _, _, ⟨_, rfl⟩, _, _, ⟨decoded, rfl⟩,
    _, _, ⟨_, rfl⟩, rfl, rfl⟩ := rest
  exact ⟨textBytes_of_fromUtf8 decoded, used⟩

/-- A command that starts with nothing left to be read returns the answer to
its own request, and leaves nothing to be read. -/
theorem command_ok {peer : List (List UInt8) → List UInt8}
    (wellFormed : ∀ packets, hash ∉ peer packets) {timeout : Nat}
    {attempt : Attempt} {payload : List UInt8} {wire after : Wire}
    (clean : wire.inbound = []) {text : String}
    (returned : command peer timeout attempt payload wire =
      (some (.ok text), after)) :
    textBytes text = peer (wire.packets ++ [payload]) ∧
      after = ⟨wire.packets ++ [payload], []⟩ := by
  unfold command at returned
  cases report : attempt.write (packet payload) with
  | lost error => simp [report, WriteReport.result] at returned
  | sentFailed error => simp [report, WriteReport.result] at returned
  | sent =>
      simp only [report, WriteReport.result, WriteReport.reaches, if_true,
        Wire.deliver, clean, List.nil_append, Prod.mk.injEq] at returned
      obtain ⟨received, rfl⟩ := returned
      obtain ⟨decoded, used⟩ := receiveReply_ok (wellFormed _) rfl
        (Prod.ext received rfl)
      rw [used]
      exact ⟨decoded, rfl⟩

/-! The calls that send one command each. -/

def exchange (request : Result (List UInt8)) (interpret : String → Result α)
    (peer : List (List UInt8) → List UInt8) (timeout : Nat)
    (attempt : Attempt) (wire : Wire) : Option (Result α) × Wire :=
  match request with
  | .error error => (some (.error error), wire)
  | .ok payload =>
      let (result, wire) := command peer timeout attempt payload wire
      (result.map (· >>= interpret), wire)

def readRequest (register : UInt32) : List UInt8 :=
  112 :: hexNumber register.toNat

def gdbThreadId (vcpu : UInt32) : Result (List UInt8) :=
  if vcpu.toNat + 1 < 2 ^ 32 then .ok (hexNumber (vcpu.toNat + 1))
  else .error (.backend "vCPU index is too large")

def selectRequest (vcpu : UInt32) : Result (List UInt8) := do
  let thread ← gdbThreadId vcpu
  return 72 :: 103 :: thread

/-- A register narrower than a word takes only what fits it. -/
def checkFits (width : Nat) (value : UInt64) : Result Unit := do
  let widthBits ← okOr (Usize.checkedMul width 8)
    (.backend "GDB register width overflow")
  let limit := if widthBits < 2 ^ 32 then checkedShl 1 widthBits else none
  rejectIf (width < 8 ∧ limit.all fun bound => bound.toNat ≤ value.toNat)
    (.backend ("register value " ++ hex value.toNat ++
      s!" does not fit {width} bytes"))

def writeRequest (register : UInt32) (width : Nat) (value : UInt64) :
    Result (List UInt8) := do
  checkFits width value
  let encoded ← encodeLittleHex value width
  let _capacity ← okOr (Usize.checkedAdd encoded.length 10)
    (.backend "GDB register write command length overflow")
  return 80 :: (hexNumber register.toNat ++ 61 :: encoded)

section Calls

variable (peer : List (List UInt8) → List UInt8) (timeout : Nat)
  (attempt : Attempt)

def readRegister (register : UInt32) (width : Nat) (wire : Wire) :
    Option (Result UInt64) × Wire :=
  exchange (.ok (readRequest register))
    (fun response => decodeLittleHex (textBytes response) width) peer timeout
    attempt wire

def selectVcpu (vcpu : UInt32) (wire : Wire) : Option (Result Unit) × Wire :=
  exchange (selectRequest vcpu)
    (fun response => rejectIf (response ≠ "OK")
      (.backend s!"GDB failed to select vCPU {vcpu}: {response}")) peer timeout
    attempt wire

def writeRegister (register : UInt32) (width : Nat) (value : UInt64)
    (wire : Wire) : Option (Result Unit) × Wire :=
  exchange (writeRequest register width value)
    (fun response => rejectIf (response ≠ "OK")
      (.backend s!"unexpected GDB write response: {response}")) peer timeout
    attempt wire

end Calls

theorem exchange_ok {request : Result (List UInt8)}
    {interpret : String → Result α} {peer : List (List UInt8) → List UInt8}
    (wellFormed : ∀ packets, hash ∉ peer packets) {timeout : Nat}
    {attempt : Attempt} {wire after : Wire} (clean : wire.inbound = [])
    {value : α}
    (returned : exchange request interpret peer timeout attempt wire =
      (some (.ok value), after)) :
    ∃ payload text, request = .ok payload ∧ interpret text = .ok value ∧
      textBytes text = peer (wire.packets ++ [payload]) ∧
      after = ⟨wire.packets ++ [payload], []⟩ := by
  unfold exchange at returned
  cases request with
  | error error => simp at returned
  | ok payload =>
      cases sent : command peer timeout attempt payload wire with
      | mk result later =>
      simp only [sent, Prod.mk.injEq, Option.map_eq_some_iff] at returned
      obtain ⟨⟨outcome, rfl, interpreted⟩, rfl⟩ := returned
      obtain ⟨text, rfl, interpreted⟩ := bind_eq_ok.mp interpreted
      obtain ⟨answered, afterEq⟩ := command_ok wellFormed clean sent
      exact ⟨payload, text, rfl, interpreted, answered, afterEq⟩

section Exchanges

variable {peer : List (List UInt8) → List UInt8}
  (wellFormed : ∀ packets, hash ∉ peer packets) {timeout : Nat}
  {attempt : Attempt} {wire after : Wire} (clean : wire.inbound = [])
include wellFormed clean

theorem selectVcpu_ok {vcpu : UInt32}
    (selected : selectVcpu peer timeout attempt vcpu wire =
      (some (.ok ()), after)) :
    ∃ thread, selectRequest vcpu = .ok thread ∧
      peer (wire.packets ++ [thread]) = textBytes "OK" ∧
      after = ⟨wire.packets ++ [thread], []⟩ := by
  obtain ⟨thread, text, requested, accepted, answered, afterEq⟩ :=
    exchange_ok wellFormed clean selected
  rw [rejectIf_eq_ok, not_not] at accepted
  rw [accepted] at answered
  exact ⟨thread, requested, answered.symm, afterEq⟩

theorem writeRegister_ok {register : UInt32} {width : Nat} {value : UInt64}
    (written : writeRegister peer timeout attempt register width value wire =
      (some (.ok ()), after)) :
    ∃ request, writeRequest register width value = .ok request ∧
      peer (wire.packets ++ [request]) = textBytes "OK" ∧
      after = ⟨wire.packets ++ [request], []⟩ := by
  obtain ⟨request, text, requested, accepted, answered, afterEq⟩ :=
    exchange_ok wellFormed clean written
  rw [rejectIf_eq_ok, not_not] at accepted
  rw [accepted] at answered
  exact ⟨request, requested, answered.symm, afterEq⟩

theorem readRegister_ok {register : UInt32} {width : Nat} {value : UInt64}
    (read : readRegister peer timeout attempt register width wire =
      (some (.ok value), after)) :
    decodeLittleHex (peer (wire.packets ++ [readRequest register])) width =
        .ok value ∧
      after = ⟨wire.packets ++ [readRequest register], []⟩ := by
  obtain ⟨_, text, ⟨rfl⟩, decoded, answered, afterEq⟩ :=
    exchange_ok wellFormed clean read
  rw [answered] at decoded
  exact ⟨decoded, afterEq⟩

end Exchanges

/-! Whole runs on one connection. -/

inductive Call where
  | command (payload : List UInt8)
  | readRegister (register : UInt32) (width : Nat)
  | selectVcpu (vcpu : UInt32)
  | writeRegister (register : UInt32) (width : Nat) (value : UInt64)
  deriving DecidableEq, Repr

inductive Reply where
  | text (response : String)
  | value (value : UInt64)
  | done
  deriving DecidableEq, Repr

def Call.request : Call → Result (List UInt8)
  | .command payload => .ok payload
  | .readRegister register _ => .ok (readRequest register)
  | .selectVcpu vcpu => selectRequest vcpu
  | .writeRegister register width value => writeRequest register width value

def reply (convert : α → Reply) (returned : Option (Result α) × Wire) :
    Option (Result Reply) × Wire :=
  (returned.1.map (·.map convert), returned.2)

def perform (peer : List (List UInt8) → List UInt8) (timeout : Nat)
    (attempt : Attempt) (wire : Wire) : Call → Option (Result Reply) × Wire
  | .command payload =>
      reply .text (command peer timeout attempt payload wire)
  | .readRegister register width =>
      reply .value (readRegister peer timeout attempt register width wire)
  | .selectVcpu vcpu =>
      reply (fun _ => .done) (selectVcpu peer timeout attempt vcpu wire)
  | .writeRegister register width value =>
      reply (fun _ => .done)
        (writeRegister peer timeout attempt register width value wire)

/-- A reply that says what the answer to the call's own request says. -/
def Answers (response : List UInt8) : Call → Reply → Prop
  | .command _, .text text => textBytes text = response
  | .readRegister _ width, .value value =>
      decodeLittleHex response width = .ok value
  | .selectVcpu _, .done => response = textBytes "OK"
  | .writeRegister _ _ _, .done => response = textBytes "OK"
  | _, _ => False

theorem reply_eq_ok {convert : α → Reply}
    {returned : Option (Result α) × Wire} {result : Reply} {after : Wire} :
    reply convert returned = (some (.ok result), after) ↔
      ∃ value, returned = (some (.ok value), after) ∧
        convert value = result := by
  obtain ⟨outcome, wire⟩ := returned
  cases outcome with
  | none => simp [reply]
  | some outcome =>
      cases outcome with
      | error error => simp [reply, Except.map]
      | ok value =>
          simp [reply, Except.map, and_comm]

theorem perform_ok {peer : List (List UInt8) → List UInt8}
    (wellFormed : ∀ packets, hash ∉ peer packets) {timeout : Nat}
    {attempt : Attempt} {wire after : Wire} (clean : wire.inbound = [])
    {call : Call} {result : Reply}
    (returned : perform peer timeout attempt wire call =
      (some (.ok result), after)) :
    ∃ payload, call.request = .ok payload ∧
      after = ⟨wire.packets ++ [payload], []⟩ ∧
      Answers (peer (wire.packets ++ [payload])) call result := by
  cases call with
  | command payload =>
      obtain ⟨text, sent, rfl⟩ := reply_eq_ok.mp returned
      obtain ⟨answered, afterEq⟩ := command_ok wellFormed clean sent
      exact ⟨payload, rfl, afterEq, answered⟩
  | readRegister register width =>
      obtain ⟨value, sent, rfl⟩ := reply_eq_ok.mp returned
      obtain ⟨decoded, afterEq⟩ := readRegister_ok wellFormed clean sent
      exact ⟨_, rfl, afterEq, decoded⟩
  | selectVcpu vcpu =>
      obtain ⟨_, sent, rfl⟩ := reply_eq_ok.mp returned
      obtain ⟨thread, requested, answered, afterEq⟩ :=
        selectVcpu_ok wellFormed clean sent
      exact ⟨thread, requested, afterEq, answered⟩
  | writeRegister register width value =>
      obtain ⟨_, sent, rfl⟩ := reply_eq_ok.mp returned
      obtain ⟨request, requested, answered, afterEq⟩ :=
        writeRegister_ok wellFormed clean sent
      exact ⟨request, requested, afterEq, answered⟩

/-- One call of a run: what had reached the stub before it, and its result. -/
structure Exchanged where
  call : Call
  before : List (List UInt8)
  result : Option (Result Reply)

section Runs

variable (peer : List (List UInt8) → List UInt8) (timeout : Nat)

def transcript : List (Call × Attempt) → Wire → List Exchanged
  | [], _ => []
  | (call, attempt) :: rest, wire =>
      let (result, after) := perform peer timeout attempt wire call
      ⟨call, wire.packets, result⟩ :: transcript rest after

/-- No call of the run starts with part of an earlier answer to be read. -/
def CleanStarts : List (Call × Attempt) → Wire → Prop
  | [], _ => True
  | (call, attempt) :: rest, wire =>
      wire.inbound = [] ∧
        CleanStarts rest (perform peer timeout attempt wire call).2

variable {peer timeout}

/-- Calls that all return leave nothing to be read between them. -/
theorem cleanStarts_of_returned (wellFormed : ∀ packets, hash ∉ peer packets)
    {calls : List (Call × Attempt)} {wire : Wire} (clean : wire.inbound = [])
    (returned : ∀ exchanged ∈ transcript peer timeout calls wire,
      ∃ result, exchanged.result = some (.ok result)) :
    CleanStarts peer timeout calls wire := by
  induction calls generalizing wire with
  | nil => exact trivial
  | cons first rest induction =>
      obtain ⟨call, attempt⟩ := first
      simp only [transcript, List.forall_mem_cons] at returned
      obtain ⟨⟨result, same⟩, later⟩ := returned
      obtain ⟨payload, _, afterEq, _⟩ := perform_ok wellFormed clean
        (Prod.ext same rfl)
      exact ⟨clean, induction (congrArg Wire.inbound afterEq) later⟩

/-- In a run without leftovers every call that returns reports what the stub
answered to that call's own request. -/
theorem gdb_replies_belong (wellFormed : ∀ packets, hash ∉ peer packets)
    {calls : List (Call × Attempt)} {wire : Wire}
    (clean : CleanStarts peer timeout calls wire) :
    ∀ exchanged ∈ transcript peer timeout calls wire, ∀ result,
      exchanged.result = some (.ok result) →
        ∃ payload, exchanged.call.request = .ok payload ∧
          Answers (peer (exchanged.before ++ [payload])) exchanged.call
            result := by
  induction calls generalizing wire with
  | nil => simp [transcript]
  | cons first rest induction =>
      obtain ⟨call, attempt⟩ := first
      obtain ⟨start, later⟩ := clean
      simp only [transcript, List.forall_mem_cons]
      refine ⟨?_, induction later⟩
      intro result returned
      obtain ⟨payload, request, _, answers⟩ := perform_ok wellFormed start
        (Prod.ext returned rfl)
      exact ⟨payload, request, answers⟩

end Runs

/-! The registers of a session: a thread is selected before each access, and
what was written is read back. -/

def amd64Register (register : String) : Option (UInt32 × Nat) :=
  match String.ofList (register.toList.map Char.toLower) with
  | "rax" | "eax" => some (0, 8)
  | "rbx" | "ebx" => some (1, 8)
  | "rcx" | "ecx" => some (2, 8)
  | "rdx" | "edx" => some (3, 8)
  | "rsi" | "esi" => some (4, 8)
  | "rdi" | "edi" => some (5, 8)
  | "rbp" | "ebp" => some (6, 8)
  | "rsp" | "esp" => some (7, 8)
  | "r8" => some (8, 8)
  | "r9" => some (9, 8)
  | "r10" => some (10, 8)
  | "r11" => some (11, 8)
  | "r12" => some (12, 8)
  | "r13" => some (13, 8)
  | "r14" => some (14, 8)
  | "r15" => some (15, 8)
  | "rip" | "eip" => some (16, 8)
  | "rflags" | "eflags" | "efl" => some (17, 4)
  | _ => none

/-- One call after another, as long as they return. -/
def proceed (returned : Option (Result α) × Wire)
    (next : α → Wire → Option (Result β) × Wire) :
    Option (Result β) × Wire :=
  match returned with
  | (some (.ok value), wire) => next value wire
  | (some (.error error), wire) => (some (.error error), wire)
  | (none, wire) => (none, wire)

theorem proceed_eq_ok {returned : Option (Result α) × Wire}
    {next : α → Wire → Option (Result β) × Wire} {result : β} {after : Wire} :
    proceed returned next = (some (.ok result), after) ↔
      ∃ value middle, returned = (some (.ok value), middle) ∧
        next value middle = (some (.ok result), after) := by
  obtain ⟨outcome, wire⟩ := returned
  cases outcome with
  | none => simp [proceed]
  | some outcome =>
      cases outcome with
      | error error => simp [proceed]
      | ok value => simp [proceed]

/-- What the host gives the commands of one register access. -/
structure RegisterAttempts where
  select : Attempt
  write : Attempt
  read : Attempt

section Session

variable (peer : List (List UInt8) → List UInt8) (timeout : Nat)
  (attempts : RegisterAttempts)

/-- The part of the session's `read_register` that uses the stub. -/
def selectAndRead (vcpu register : UInt32) (width : Nat) (wire : Wire) :
    Option (Result UInt64) × Wire :=
  proceed (selectVcpu peer timeout attempts.select vcpu wire) fun _ wire =>
    readRegister peer timeout attempts.read register width wire

def writeAndVerify (vcpu register : UInt32) (width : Nat) (value : UInt64)
    (wire : Wire) : Option (Result Unit) × Wire :=
  proceed (selectVcpu peer timeout attempts.select vcpu wire) fun _ wire =>
    proceed (writeRegister peer timeout attempts.write register width value
        wire) fun _ wire =>
      proceed (readRegister peer timeout attempts.read register width wire)
        fun actual wire =>
          (some (rejectIf (actual ≠ value) (.backend
            ("GDB register write verification failed: expected " ++
              hex value.toNat ++ ", got " ++ hex actual.toNat))), wire)

/-- The session's `write_register`, with the stub it is connected to, if any. -/
def sessionWriteRegister (provider : String) (stub : Option Wire)
    (vcpu : UInt32) (register : String) (value : UInt64) :
    Option (Result Unit) × Option Wire :=
  match amd64Register register with
  | none => (some (.error (.unsupportedOperation provider
      "GDB register mapping")), stub)
  | some (number, width) =>
      match stub with
      | none => (some (.error (.capabilityMissing provider .registerWrite)),
          none)
      | some wire =>
          let (result, wire) := writeAndVerify peer timeout attempts vcpu
            number width value wire
          (result, some wire)

end Session

section Session

variable {peer : List (List UInt8) → List UInt8}
  (wellFormed : ∀ packets, hash ∉ peer packets) {timeout : Nat}
  {attempts : RegisterAttempts} {wire after : Wire}
  (clean : wire.inbound = [])
include wellFormed clean

theorem selectAndRead_ok {vcpu register : UInt32} {width : Nat}
    {value : UInt64}
    (read : selectAndRead peer timeout attempts vcpu register width wire =
      (some (.ok value), after)) :
    ∃ thread, selectRequest vcpu = .ok thread ∧
      decodeLittleHex (peer (wire.packets ++ [thread, readRequest register]))
        width = .ok value := by
  obtain ⟨_, middle, selected, read⟩ := proceed_eq_ok.mp read
  obtain ⟨thread, requested, _, rfl⟩ := selectVcpu_ok wellFormed clean selected
  obtain ⟨decoded, _⟩ := readRegister_ok wellFormed rfl read
  rw [List.append_assoc] at decoded
  exact ⟨thread, requested, decoded⟩

/-- A write that is reported done was answered for by the stub: it gave the
written value when it was asked for it last. -/
theorem writeAndVerify_ok {vcpu register : UInt32} {width : Nat}
    {value : UInt64}
    (verified : writeAndVerify peer timeout attempts vcpu register width value
      wire = (some (.ok ()), after)) :
    ∃ thread request, selectRequest vcpu = .ok thread ∧
      writeRequest register width value = .ok request ∧
      decodeLittleHex (peer (wire.packets ++
        [thread, request, readRequest register])) width = .ok value := by
  obtain ⟨_, _, selected, verified⟩ := proceed_eq_ok.mp verified
  obtain ⟨thread, threadRequested, _, rfl⟩ :=
    selectVcpu_ok wellFormed clean selected
  obtain ⟨_, _, written, verified⟩ := proceed_eq_ok.mp verified
  obtain ⟨request, requested, _, rfl⟩ :=
    writeRegister_ok wellFormed rfl written
  obtain ⟨actual, _, read, verified⟩ := proceed_eq_ok.mp verified
  obtain ⟨decoded, rfl⟩ := readRegister_ok wellFormed rfl read
  simp only [Prod.mk.injEq, Option.some.injEq, rejectIf_eq_ok, not_not]
    at verified
  obtain ⟨rfl, _⟩ := verified
  rw [List.append_assoc, List.append_assoc] at decoded
  exact ⟨thread, request, threadRequested, requested, decoded⟩

theorem sessionWriteRegister_ok {provider register : String} {vcpu : UInt32}
    {value : UInt64} {stub : Option Wire}
    (done : sessionWriteRegister peer timeout attempts provider (some wire)
      vcpu register value = (some (.ok ()), stub)) :
    ∃ number width thread request,
      amd64Register register = some (number, width) ∧
      selectRequest vcpu = .ok thread ∧
      writeRequest number width value = .ok request ∧
      decodeLittleHex (peer (wire.packets ++
        [thread, request, readRequest number])) width = .ok value := by
  unfold sessionWriteRegister at done
  cases known : amd64Register register with
  | none => simp [known] at done
  | some place =>
      obtain ⟨number, width⟩ := place
      simp only [known, Prod.mk.injEq] at done
      obtain ⟨thread, request, selected, requested, decoded⟩ :=
        writeAndVerify_ok wellFormed clean (Prod.ext done.1 rfl)
      exact ⟨number, width, thread, request, rfl, selected, requested, decoded⟩

end Session

/-! A stub with two registers, read by a host that gives each read of a call the
same time. -/

def twoRegisters (packets : List (List UInt8)) : List UInt8 :=
  if packets.getLast? = some (readRequest 0) then [97, 97] else [98, 98]

def attemptWith (count reads : Nat) : Attempt where
  start := 0
  write := fun _ => .sent
  turns := List.replicate reads ⟨0, fun _ => .ok (), .inTime count⟩
  acknowledge := .ok ()
  utf8Error := fun _ => "invalid utf-8 sequence"

theorem twoRegisters_wellFormed (packets : List (List UInt8)) :
    hash ∉ twoRegisters packets := by
  unfold twoRegisters
  split <;> decide

theorem gdb_reply_after_timeout :
    (transcript twoRegisters 1
        [(.readRegister 0 1, attemptWith 0 1),
          (.readRegister 1 1, attemptWith 2 8)] ⟨[], []⟩).map
        Exchanged.result =
      [some (.error (.timeout "GDB acknowledgement")),
        some (.ok (.value 0xaa))] ∧
    ¬ Answers (twoRegisters [readRequest 0, readRequest 1])
      (.readRegister 1 1) (.value 0xaa) := by
  constructor
  · decide +kernel
  · intro answers
    have own : decodeLittleHex
        (twoRegisters [readRequest 0, readRequest 1]) 1 = .ok 0xbb := by
      decide
    rw [Answers, own] at answers
    contradiction

theorem gdb_replies_belong_in_time :
    let calls : List (Call × Attempt) :=
      [(.readRegister 0 1, attemptWith 2 8),
        (.readRegister 1 1, attemptWith 2 8)]
    (transcript twoRegisters 1 calls ⟨[], []⟩).map Exchanged.result =
        [some (.ok (.value 0xaa)), some (.ok (.value 0xbb))] ∧
      ∀ exchanged ∈ transcript twoRegisters 1 calls ⟨[], []⟩, ∀ result,
        exchanged.result = some (.ok result) →
          ∃ payload, exchanged.call.request = .ok payload ∧
            Answers (twoRegisters (exchanged.before ++ [payload]))
              exchanged.call result := by
  intro calls
  refine ⟨by decide +kernel, ?_⟩
  exact gdb_replies_belong twoRegisters_wellFormed
    ⟨rfl, by decide +kernel, trivial⟩

end Gdb

end LibVmi.Qemu
