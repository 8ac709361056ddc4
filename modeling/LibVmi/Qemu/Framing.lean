import LibVmi.Qemu.Qmp

namespace LibVmi.Qemu

open Data

/-! The framing of monitor messages: one JSON text a line, read through a buffer
from a socket that may time out at any moment. -/

/-- What the socket reports to one read. Past the end of what it reports the
peer has closed the connection. -/
inductive SocketEvent where
  | chunk (first : UInt8) (rest : List UInt8)
  | timeout
  | failed (error : String)
  deriving DecidableEq, Repr

structure BufReader where
  buffer : List UInt8
  script : List SocketEvent
  deriving DecidableEq, Repr

namespace BufReader

def fillBuf (reader : BufReader) : Result (List UInt8) × BufReader :=
  match reader.buffer with
  | first :: rest => (.ok (first :: rest), reader)
  | [] =>
      match reader.script with
      | [] => (.ok [], reader)
      | .chunk first rest :: script =>
          (.ok (first :: rest), ⟨first :: rest, script⟩)
      | .timeout :: script => (.error (.timeout "QMP read"), ⟨[], script⟩)
      | .failed error :: script => (.error (.backend error), ⟨[], script⟩)

def consume (reader : BufReader) (count : Nat) : BufReader :=
  { reader with buffer := reader.buffer.drop count }

/-- Reads and buffered bytes that are still to come. -/
def pending (reader : BufReader) : Nat :=
  2 * reader.script.length + min reader.buffer.length 1

theorem fillBuf_ok {reader filled : BufReader} {first : UInt8}
    {rest : List UInt8}
    (result : reader.fillBuf = (.ok (first :: rest), filled)) :
    filled.buffer = first :: rest ∧
      (filled = reader ∨ reader.buffer = [] ∧
        reader.script = .chunk first rest :: filled.script) := by
  unfold fillBuf at result
  split at result
  · rename_i bufferEq
    simp only [Prod.mk.injEq, Except.ok.injEq] at result
    obtain ⟨same, rfl⟩ := result
    exact ⟨bufferEq.trans same, .inl rfl⟩
  · rename_i empty
    split at result <;>
      simp only [Prod.mk.injEq, Except.ok.injEq, reduceCtorEq, false_and,
        List.cons.injEq] at result
    rename_i scriptEq
    obtain ⟨⟨rfl, rfl⟩, rfl⟩ := result
    exact ⟨rfl, .inr ⟨empty, scriptEq⟩⟩

end BufReader

def newline : UInt8 := 10

def qmpMessageCapacity : UInt64 := 16 * 1024 * 1024

def messageExceeds (capacity : UInt64) : VmiError :=
  .backend s!"QMP message exceeds {capacity} bytes"

/-- How much of the available bytes belongs to the current line. -/
def lineEnd (available : List UInt8) : Nat :=
  match available.findIdx? (· = newline) with
  | some position => position + 1
  | none => available.length

def absorb (capacity : UInt64) (line available : List UInt8) :
    Result (List UInt8) := do
  let consumed := lineEnd available
  let total ← okOr (Usize.checkedAdd line.length consumed)
    (.backend "QMP message length overflow")
  rejectIf (capacity.toNat < total) (messageExceeds capacity)
  rejectIf (2 ^ 63 ≤ total) (.backend
    ("failed to grow QMP message buffer: memory allocation failed because " ++
      "the computed capacity exceeded the collection's maximum"))
  return available.take consumed

theorem absorb_eq_ok {capacity : UInt64} {line available chunk : List UInt8} :
    absorb capacity line available = .ok chunk ↔
      line.length + lineEnd available ≤ capacity.toNat ∧
        line.length + lineEnd available < 2 ^ 63 ∧
        chunk = available.take (lineEnd available) := by
  have bound := capacity.toNat_lt
  simp only [absorb, bind_eq_ok, okOr_eq_ok, Usize.checkedAdd_eq_some,
    rejectIf_eq_ok, pure_eq_ok, Except.ok.injEq, exists_and_left, exists_const,
    and_assoc, exists_eq_left, Nat.not_lt, Nat.not_le]
  constructor
  · intro given
    obtain ⟨_, fits, allocated, rfl⟩ := given
    exact ⟨fits, allocated, rfl⟩
  · intro given
    obtain ⟨fits, allocated, rfl⟩ := given
    exact ⟨Nat.lt_of_le_of_lt fits bound, fits, allocated, rfl⟩

theorem lineEnd_of_newline {body : List UInt8} (within : newline ∉ body)
    (after : List UInt8) :
    lineEnd (body ++ newline :: after) = body.length + 1 := by
  have found : (body ++ newline :: after).findIdx? (· = newline) =
      some body.length := by
    rw [List.findIdx?_append, List.findIdx?_eq_none_iff.mpr]
    · simp [List.findIdx?_cons]
    · intro byte member
      simp only [decide_eq_false_iff_not]
      intro same
      subst same
      exact within member
  rw [lineEnd, found]

theorem lineEnd_of_none {available : List UInt8}
    (none : newline ∉ available) : lineEnd available = available.length := by
  have absent : available.findIdx? (· = newline) = Option.none := by
    rw [List.findIdx?_eq_none_iff]
    intro byte member
    simp only [decide_eq_false_iff_not]
    intro same
    subst same
    exact none member
  rw [lineEnd, absent]

/-- Bytes end a line or lie within one. -/
theorem line_split (available : List UInt8) :
    newline ∉ available ∨ ∃ body after, newline ∉ body ∧
      available = body ++ newline :: after := by
  by_cases member : newline ∈ available
  · obtain ⟨body, after, rfl, first⟩ := List.eq_append_cons_of_mem member
    exact .inr ⟨body, after, first, rfl⟩
  · exact .inl member

/-- A chunk that does not complete the line is used up. -/
theorem drop_lineEnd {available : List UInt8}
    (incomplete : (available.take (lineEnd available)).getLast? ≠
      some newline) : available.drop (lineEnd available) = [] := by
  rcases line_split available with none | ⟨body, after, within, rfl⟩
  · rw [lineEnd_of_none none, List.drop_length]
  · exfalso
    apply incomplete
    rw [lineEnd_of_newline within, List.take_length_add_append]
    simp

/-- The loop of `read_json_with_capacity`, up to the end of the line. -/
def readLine (capacity : UInt64) (reader : BufReader) (line : List UInt8) :
    Result (List UInt8) × BufReader :=
  match _filled : reader.fillBuf with
  | (.error error, reader) => (.error error, reader)
  | (.ok [], reader) =>
      if line = [] then (.error QmpClient.connectionClosed, reader)
      else (.error (messageExceeds capacity), reader)
  | (.ok (first :: rest), reader) =>
      match _absorbed : absorb capacity line (first :: rest) with
      | .error error => (.error error, reader)
      | .ok chunk =>
          let reader := reader.consume (lineEnd (first :: rest))
          if _complete : chunk.getLast? = some newline then
            (.ok (line ++ chunk), reader)
          else
            readLine capacity reader (line ++ chunk)
termination_by reader.pending
decreasing_by
  obtain ⟨_, _, rfl⟩ := absorb_eq_ok.mp _absorbed
  have used := drop_lineEnd _complete
  obtain ⟨bufferEq, source⟩ := BufReader.fillBuf_ok _filled
  simp only [BufReader.consume, BufReader.pending, bufferEq, used,
    List.length_nil]
  rcases source with rfl | ⟨_, scriptEq⟩
  · rw [bufferEq, List.length_cons]
    omega
  · rw [scriptEq, List.length_cons]
    omega

/-- The loop without the evidence of its progress. -/
theorem readLine_eq (capacity : UInt64) (reader : BufReader)
    (line : List UInt8) :
    readLine capacity reader line =
      match reader.fillBuf with
      | (.error error, reader) => (.error error, reader)
      | (.ok [], reader) =>
          if line = [] then (.error QmpClient.connectionClosed, reader)
          else (.error (messageExceeds capacity), reader)
      | (.ok (first :: rest), reader) =>
          match absorb capacity line (first :: rest) with
          | .error error => (.error error, reader)
          | .ok chunk =>
              let reader := reader.consume (lineEnd (first :: rest))
              if chunk.getLast? = some newline then
                (.ok (line ++ chunk), reader)
              else
                readLine capacity reader (line ++ chunk) := by
  rw [readLine]
  split
  · rename_i filled
    simp only [filled]
  · rename_i filled
    simp only [filled]
  · rename_i filled
    simp only [filled]
    split
    · rename_i absorbed
      simp only [absorbed]
    · rename_i absorbed
      simp only [absorbed, dite_eq_ite]

/-- `parse` is the JSON library's `from_slice`. -/
def parseLine (parse : List UInt8 → Except String Json) (line : List UInt8) :
    Result Json :=
  (parse line).mapError fun error => .backend ("invalid QMP JSON: " ++ error)

def readJsonWithCapacity (parse : List UInt8 → Except String Json)
    (capacity : UInt64) (reader : BufReader) : Result Json × BufReader :=
  match readLine capacity reader [] with
  | (.error error, reader) => (.error error, reader)
  | (.ok line, reader) => (parseLine parse line, reader)

def readJson (parse : List UInt8 → Except String Json) (reader : BufReader) :
    Result Json × BufReader :=
  readJsonWithCapacity parse qmpMessageCapacity reader

/-! What is still to be read, as one sequence of bytes and timeouts. -/

def SocketEvent.marks : SocketEvent → List (Option UInt8)
  | .chunk first rest => (first :: rest).map some
  | .timeout => [none]
  | .failed _ => []

namespace BufReader

def marks (reader : BufReader) : List (Option UInt8) :=
  reader.buffer.map some ++ reader.script.flatMap SocketEvent.marks

/-- A socket that may be slow but does not fail. -/
def Reliable (reader : BufReader) : Prop :=
  ∀ error, SocketEvent.failed error ∉ reader.script

theorem Reliable.consume {reader : BufReader} (reliable : reader.Reliable)
    (count : Nat) : (reader.consume count).Reliable := reliable

/-- One filling of the buffer: the end, a timeout, or bytes. -/
theorem fillBuf_cases {reader : BufReader} (reliable : reader.Reliable) :
    (∃ later, reader.marks = none :: later ∧
      ∃ after : BufReader, after.marks = later ∧ after.Reliable ∧
        reader.fillBuf = (.error (.timeout "QMP read"), after)) ∨
    (∃ (first : UInt8) (rest : List UInt8) (filled : BufReader),
      reader.fillBuf = (.ok (first :: rest), filled) ∧ filled.Reliable ∧
        filled.buffer = first :: rest ∧ filled.marks = reader.marks) ∨
    reader.marks = [] := by
  obtain ⟨buffer, script⟩ := reader
  cases buffer with
  | cons first rest =>
      exact .inr (.inl ⟨first, rest, _, rfl, reliable, rfl, rfl⟩)
  | nil =>
      cases script with
      | nil => exact .inr (.inr rfl)
      | cons event script =>
          have rest : Reliable ⟨[], script⟩ := fun error member =>
            reliable error (List.mem_cons_of_mem _ member)
          cases event with
          | chunk first bytes =>
              exact .inr (.inl ⟨first, bytes, ⟨first :: bytes, script⟩, rfl,
                rest, rfl, rfl⟩)
          | timeout =>
              exact .inl ⟨_, rfl, ⟨[], script⟩, rfl, rest, rfl⟩
          | failed error =>
              exact absurd List.mem_cons_self (reliable error)

end BufReader

theorem marks_consume {reader : BufReader} {taken left : List UInt8}
    (buffered : reader.buffer = taken ++ left)
    {later : List (Option UInt8)}
    (marks : reader.marks = taken.map some ++ later) :
    (reader.consume taken.length).marks = later := by
  rw [BufReader.marks, buffered, List.map_append, List.append_assoc,
    List.append_cancel_left_eq] at marks
  rw [BufReader.consume, BufReader.marks, buffered, List.drop_left]
  exact marks

/-- Of two runs of bytes at the start of one sequence, one continues the
other. -/
theorem bytes_prefix {left right : List UInt8}
    {leftTail rightTail : List (Option UInt8)}
    (same : left.map some ++ leftTail = right.map some ++ rightTail) :
    (∃ more, right = left ++ more ∧ leftTail = more.map some ++ rightTail) ∨
      ∃ more, left = right ++ more ∧ rightTail = more.map some ++ leftTail := by
  induction left generalizing right with
  | nil => exact .inl ⟨right, rfl, same⟩
  | cons byte left induction =>
      cases right with
      | nil => exact .inr ⟨byte :: left, rfl, same.symm⟩
      | cons other right =>
          simp only [List.map_cons, List.cons_append, List.cons.injEq,
            Option.some.injEq] at same
          obtain ⟨rfl, same⟩ := same
          rcases induction same with ⟨more, rfl, tail⟩ | ⟨more, rfl, tail⟩
          · exact .inl ⟨more, rfl, tail⟩
          · exact .inr ⟨more, rfl, tail⟩

section Lines

variable {capacity : UInt64} (small : capacity.toNat < 2 ^ 63)
  {reader filled : BufReader} {first : UInt8} {rest line : List UInt8}
  (filledEq : reader.fillBuf = (.ok (first :: rest), filled))

include small filledEq

/-- Available bytes within a line are all added to it. -/
theorem readLine_within (within : newline ∉ first :: rest)
    (fits : line.length + (first :: rest).length ≤ capacity.toNat) :
    readLine capacity reader line =
      readLine capacity (filled.consume (first :: rest).length)
        (line ++ first :: rest) := by
  have consumed := lineEnd_of_none within
  have absorbed : absorb capacity line (first :: rest) = .ok (first :: rest) :=
    absorb_eq_ok.mpr ⟨by omega, by omega, by rw [consumed, List.take_length]⟩
  have incomplete : (first :: rest).getLast? ≠ some newline := fun last =>
    within (List.mem_of_getLast? last)
  rw [readLine_eq, filledEq]
  simp only [absorbed, if_neg incomplete, consumed]

/-- Available bytes that end a line complete it. -/
theorem readLine_complete {body after : List UInt8} (within : newline ∉ body)
    (splits : first :: rest = body ++ newline :: after)
    (fits : line.length + (body ++ [newline]).length ≤ capacity.toNat) :
    readLine capacity reader line =
      (.ok (line ++ (body ++ [newline])),
        filled.consume (body ++ [newline]).length) := by
  have consumed : lineEnd (first :: rest) = (body ++ [newline]).length := by
    rw [splits, lineEnd_of_newline within after, List.length_append,
      List.length_singleton]
  have absorbed : absorb capacity line (first :: rest) =
      .ok (body ++ [newline]) := by
    refine absorb_eq_ok.mpr ⟨by omega, by omega, ?_⟩
    rw [consumed, splits, List.append_cons body newline after,
      List.take_left]
  have complete : (body ++ [newline]).getLast? = some newline := by simp
  rw [readLine_eq, filledEq]
  simp only [absorbed, if_pos complete, consumed]

end Lines

/-- A timeout within a line drops what was received of it. -/
theorem readLine_timeout {capacity : UInt64} (small : capacity.toNat < 2 ^ 63)
    {reader : BufReader} (reliable : reader.Reliable) {part : List UInt8}
    (within : newline ∉ part) {later : List (Option UInt8)}
    (marks : reader.marks = part.map some ++ none :: later) (line : List UInt8)
    (fits : line.length + part.length ≤ capacity.toNat) :
    ∃ after : BufReader, after.marks = later ∧ after.Reliable ∧
      readLine capacity reader line = (.error (.timeout "QMP read"), after) := by
  induction size : part.length using Nat.strong_induction_on
    generalizing reader part line with
  | _ size induction =>
      subst size
      rcases BufReader.fillBuf_cases reliable with
        ⟨rest, next, after, afterMarks, afterReliable, filledEq⟩ |
        ⟨first, rest, filled, filledEq, filledReliable, buffered, same⟩ | empty
      · rw [next] at marks
        cases part with
        | nil =>
            obtain rfl := (List.cons.inj marks).2
            refine ⟨after, afterMarks, afterReliable, ?_⟩
            rw [readLine_eq, filledEq]
        | cons byte part => simp at marks
      · rw [← same] at marks
        have continues : ∃ more, part = first :: rest ++ more := by
          rw [BufReader.marks, buffered] at marks
          rcases bytes_prefix marks with ⟨more, partEq, _⟩ | ⟨more, partEq, tail⟩
          · exact ⟨more, partEq⟩
          · cases more with
            | nil => exact ⟨[], by rw [partEq, List.append_nil, List.append_nil]⟩
            | cons byte more => simp at tail
        obtain ⟨more, rfl⟩ := continues
        rw [List.mem_append, not_or] at within
        rw [List.length_append] at fits
        rw [List.map_append, List.append_assoc] at marks
        have advanced := marks_consume
          (buffered.trans (List.append_nil _).symm) marks
        rw [readLine_within small filledEq within.1 (by omega)]
        refine induction more.length ?_ (filledReliable.consume _) within.2
          advanced _ ?_ rfl
        · rw [List.length_append, List.length_cons]
          omega
        · rw [List.length_append]
          omega
      · rw [empty] at marks
        simp at marks

/-- A line that arrives without a timeout is returned whole. -/
theorem readLine_line {capacity : UInt64} (small : capacity.toNat < 2 ^ 63)
    {reader : BufReader} (reliable : reader.Reliable) {body : List UInt8}
    (within : newline ∉ body) {later : List (Option UInt8)}
    (marks : reader.marks = (body ++ [newline]).map some ++ later)
    (line : List UInt8)
    (fits : line.length + (body ++ [newline]).length ≤ capacity.toNat) :
    ∃ after : BufReader, after.marks = later ∧ after.Reliable ∧
      readLine capacity reader line =
        (.ok (line ++ (body ++ [newline])), after) := by
  induction size : body.length using Nat.strong_induction_on
    generalizing reader body line with
  | _ size induction =>
      subst size
      rcases BufReader.fillBuf_cases reliable with
        ⟨rest, next, _⟩ |
        ⟨first, rest, filled, filledEq, filledReliable, buffered, same⟩ | empty
      · rw [next] at marks
        cases body <;> simp at marks
      · rw [← same] at marks
        have split := marks
        rw [BufReader.marks, buffered] at split
        -- The line ends in the buffer, or the buffer ends within the line.
        have ends : (∃ more, first :: rest = body ++ newline :: more) ∨
            ∃ more, body = first :: rest ++ more := by
          rcases bytes_prefix split with ⟨more, lineEq, _⟩ | ⟨more, bytesEq, _⟩
          · cases List.eq_nil_or_concat more with
            | inl none =>
                rw [none, List.append_nil] at lineEq
                exact .inl ⟨[], lineEq.symm⟩
            | inr last =>
                obtain ⟨more, byte, rfl⟩ := last
                rw [List.concat_eq_append, ← List.append_assoc] at lineEq
                exact .inr ⟨more, (List.append_inj' lineEq rfl).1⟩
          · exact .inl ⟨more, by rw [bytesEq, List.append_cons body newline more]⟩
        rcases ends with ⟨more, splits⟩ | ⟨more, rfl⟩
        · refine ⟨_, ?_, ?_, readLine_complete small filledEq within splits fits⟩
          · have leaves : filled.buffer = body ++ [newline] ++ more := by
              rw [buffered, splits, List.append_cons body newline more]
            exact marks_consume leaves marks
          · exact filledReliable.consume _
        · rw [List.mem_append, not_or] at within
          rw [List.append_assoc, List.length_append] at fits
          rw [List.append_assoc (first :: rest), List.map_append,
            List.append_assoc] at marks
          have advanced := marks_consume
            (buffered.trans (List.append_nil _).symm) marks
          obtain ⟨after, afterMarks, afterReliable, read⟩ :=
            induction more.length (by
              rw [List.length_append, List.length_cons]
              omega) (filledReliable.consume _) within.2 advanced (line ++ first :: rest)
              (by rw [List.length_append]; omega) rfl
          refine ⟨after, afterMarks, afterReliable, ?_⟩
          rw [readLine_within small filledEq within.1 (by omega), read]
          simp only [List.append_assoc]
      · rw [empty] at marks
        simp at marks

/-! Successive calls. -/

/-- The reports of successive calls until all is read. -/
inductive Reads (parse : List UInt8 → Except String Json) :
    BufReader → List (Result Json) → Prop
  | done : Reads parse ⟨[], []⟩ []
  | read {reader next : BufReader} {result : Result Json}
      {rest : List (Result Json)} (more : reader ≠ ⟨[], []⟩)
      (reported : readJson parse reader = (result, next))
      (later : Reads parse next rest) : Reads parse reader (result :: rest)

theorem Reads.unique {parse : List UInt8 → Except String Json}
    {reader : BufReader} {first second : List (Result Json)}
    (left : Reads parse reader first) (right : Reads parse reader second) :
    first = second := by
  induction left generalizing second with
  | done =>
      cases right with
      | done => rfl
      | read more _ _ => exact absurd rfl more
  | read more reported _ induction =>
      cases right with
      | done => exact absurd rfl more
      | read _ again later =>
          rw [reported] at again
          obtain ⟨rfl, rfl⟩ := Prod.mk.inj again
          rw [induction later]

/-- A client that is given what successive reads of its connection report reads
as the connection does. -/
theorem Reads.client {parse : List UInt8 → Except String Json}
    {reader : BufReader} {client : QmpClient}
    (reads : Reads parse reader client.incoming) :
    client.readJson.1 = (readJson parse reader).1 ∧
      Reads parse (readJson parse reader).2
        client.readJson.2.incoming := by
  obtain ⟨incoming, nextId, events, timeout⟩ := client
  cases reads with
  | done =>
      have closed : readJson parse ⟨[], []⟩ =
          (.error QmpClient.connectionClosed, ⟨[], []⟩) := by
        rw [readJson, readJsonWithCapacity, readLine_eq]
        rfl
      rw [closed]
      exact ⟨rfl, .done⟩
  | read more reported later =>
      rw [reported]
      exact ⟨rfl, later⟩

def timedOut : Result Json → Bool
  | .error (.timeout operation) => operation = "QMP read"
  | _ => false

/-- What the calls return that do not time out. -/
def returned (results : List (Result Json)) : List (Result Json) :=
  results.filter fun result => !timedOut result

theorem timedOut_parseLine (parse : List UInt8 → Except String Json)
    (line : List UInt8) : timedOut (parseLine parse line) = false := by
  unfold parseLine
  cases parse line <;> rfl

/-! Messages, and what of them is parsed. -/

def IsLine (message : List UInt8) : Prop :=
  ∃ body, newline ∉ body ∧ message = body ++ [newline]

/-- A message, and the part of it that came after the last timeout in it. -/
structure Delivery where
  message : List UInt8
  kept : List UInt8
  deriving DecidableEq, Repr

def deliveries : (marks : List (Option UInt8)) → (message kept : List UInt8) →
    List Delivery
  | [], _, _ => []
  | none :: marks, message, _ => deliveries marks message []
  | some byte :: marks, message, kept =>
      if byte = newline then
        ⟨message ++ [byte], kept ++ [byte]⟩ :: deliveries marks [] []
      else
        deliveries marks (message ++ [byte]) (kept ++ [byte])

theorem deliveries_part {part : List UInt8} (within : newline ∉ part)
    (later : List (Option UInt8)) (message kept : List UInt8) :
    deliveries (part.map some ++ later) message kept =
      deliveries later (message ++ part) (kept ++ part) := by
  induction part generalizing message kept with
  | nil => simp
  | cons byte part induction =>
      rw [List.mem_cons, not_or] at within
      rw [List.map_cons, List.cons_append, deliveries,
        if_neg (Ne.symm within.1), induction within.2]
      simp only [List.append_assoc, List.singleton_append]

theorem deliveries_line {body : List UInt8} (within : newline ∉ body)
    (later : List (Option UInt8)) (message kept : List UInt8) :
    deliveries ((body ++ [newline]).map some ++ later) message kept =
      ⟨message ++ (body ++ [newline]), kept ++ (body ++ [newline])⟩ ::
        deliveries later [] [] := by
  rw [List.map_append, List.append_assoc, deliveries_part within]
  simp only [List.map_cons, List.map_nil, List.singleton_append, deliveries,
    if_true, List.append_assoc]

theorem marks_split (marks : List (Option UInt8)) :
    ∃ part, newline ∉ part ∧
      (marks = part.map some ∨
        (∃ later, marks = part.map some ++ none :: later) ∨
        ∃ later, marks = (part ++ [newline]).map some ++ later) := by
  induction marks with
  | nil => exact ⟨[], by simp, .inl rfl⟩
  | cons mark marks induction =>
      cases mark with
      | none => exact ⟨[], by simp, .inr (.inl ⟨marks, rfl⟩)⟩
      | some byte =>
          by_cases isNewline : byte = newline
          · subst isNewline
            exact ⟨[], by simp, .inr (.inr ⟨marks, rfl⟩)⟩
          · obtain ⟨part, within, splits⟩ := induction
            refine ⟨byte :: part, ?_, ?_⟩
            · simp [within, Ne.symm isNewline]
            · rcases splits with rfl | ⟨later, rfl⟩ | ⟨later, rfl⟩
              · exact .inl rfl
              · exact .inr (.inl ⟨later, rfl⟩)
              · exact .inr (.inr ⟨later, rfl⟩)

/-- A newline is found first where it is. -/
theorem append_newline_inj {left right leftTail rightTail : List UInt8}
    (inLeft : newline ∉ left) (inRight : newline ∉ right)
    (same : left ++ newline :: leftTail = right ++ newline :: rightTail) :
    left = right ∧ leftTail = rightTail := by
  rcases List.append_eq_append_iff.mp same with
    ⟨more, rfl, tail⟩ | ⟨more, rfl, tail⟩
  · cases more with
    | nil => exact ⟨(List.append_nil left).symm, (List.cons.inj tail).2⟩
    | cons byte more =>
        obtain ⟨rfl, _⟩ := List.cons.inj tail
        exact absurd (by simp) inRight
  · cases more with
    | nil => exact ⟨List.append_nil right, (List.cons.inj tail).2.symm⟩
    | cons byte more =>
        obtain ⟨rfl, _⟩ := List.cons.inj tail
        exact absurd (by simp) inLeft

theorem length_le_of_newline {left tail right rest : List UInt8}
    (within : newline ∉ left)
    (same : left ++ tail = right ++ newline :: rest) :
    left.length ≤ right.length := by
  rcases List.append_eq_append_iff.mp same with
    ⟨more, rfl, _⟩ | ⟨more, rfl, tail⟩
  · rw [List.length_append]
    omega
  · cases more with
    | nil => rw [List.append_nil]
    | cons byte more =>
        obtain ⟨rfl, _⟩ := List.cons.inj tail
        exact absurd (by simp) within

section Messages

variable {limit : Nat} {messages : List (List UInt8)}
  (lines : ∀ message ∈ messages, IsLine message ∧ message.length ≤ limit)

include lines

/-- The first line of the messages is the first message. -/
theorem first_message {body rest : List UInt8} (within : newline ∉ body)
    (same : body ++ newline :: rest = messages.flatten) :
    ∃ others, messages = (body ++ [newline]) :: others ∧
      rest = others.flatten := by
  cases messages with
  | nil => simp at same
  | cons message others =>
      obtain ⟨⟨other, otherWithin, rfl⟩, _⟩ :=
        lines message List.mem_cons_self
      rw [List.flatten_cons, ← List.append_cons other newline] at same
      obtain ⟨rfl, rfl⟩ := append_newline_inj within otherWithin same
      exact ⟨others, rfl, rfl⟩

/-- The messages start with part of a message only within the limit. -/
theorem part_of_message {part rest : List UInt8} (within : newline ∉ part)
    (same : part ++ rest = messages.flatten) : part.length ≤ limit := by
  cases messages with
  | nil =>
      obtain ⟨rfl, _⟩ := List.append_eq_nil_iff.mp same
      exact Nat.zero_le limit
  | cons message others =>
      obtain ⟨⟨other, _, rfl⟩, fits⟩ := lines message List.mem_cons_self
      rw [List.flatten_cons, ← List.append_cons other newline] at same
      have shorter := length_le_of_newline within same
      rw [List.length_append] at fits
      omega

theorem no_message {part : List UInt8} (within : newline ∉ part)
    (same : part = messages.flatten) : messages = [] ∧ part = [] := by
  cases messages with
  | nil => exact ⟨rfl, same⟩
  | cons message others =>
      obtain ⟨⟨other, _, rfl⟩, _⟩ := lines message List.mem_cons_self
      exact absurd (by rw [same]; simp) within

end Messages

theorem BufReader.eq_done {reader : BufReader} (reliable : reader.Reliable)
    (marks : reader.marks = []) : reader = ⟨[], []⟩ := by
  obtain ⟨buffer, script⟩ := reader
  obtain ⟨noBytes, noEvents⟩ := List.append_eq_nil_iff.mp marks
  obtain rfl := List.map_eq_nil_iff.mp noBytes
  cases script with
  | nil => rfl
  | cons event script =>
      have none := List.flatMap_eq_nil_iff.mp noEvents event List.mem_cons_self
      cases event with
      | chunk first rest => contradiction
      | timeout => contradiction
      | failed error => exact absurd List.mem_cons_self (reliable error)

theorem BufReader.ne_done {reader : BufReader} (mark : Option UInt8)
    (member : mark ∈ reader.marks) : reader ≠ ⟨[], []⟩ := by
  intro same
  subst same
  exact absurd member List.not_mem_nil

/-- Every message is parsed from what came of it after the last timeout in
it. -/
theorem reads_deliveries (parse : List UInt8 → Except String Json)
    {reader : BufReader} (reliable : reader.Reliable) {message : List UInt8}
    (within : newline ∉ message) {messages : List (List UInt8)}
    (lines : ∀ message ∈ messages, IsLine message ∧
      message.length ≤ qmpMessageCapacity.toNat)
    (received : message ++ reader.marks.filterMap id = messages.flatten) :
    ∃ results, Reads parse reader results ∧
      returned results = (deliveries reader.marks message []).map
        (fun delivery => parseLine parse delivery.kept) ∧
      (deliveries reader.marks message []).map Delivery.message = messages := by
  have small : qmpMessageCapacity.toNat < 2 ^ 63 := by decide
  induction size : reader.marks.length using Nat.strong_induction_on
    generalizing reader message messages with
  | _ size induction =>
      subst size
      obtain ⟨part, partWithin, splits⟩ := marks_split reader.marks
      have bothWithin : newline ∉ message ++ part := by
        rw [List.mem_append, not_or]
        exact ⟨within, partWithin⟩
      rcases splits with marks | ⟨later, marks⟩ | ⟨later, marks⟩
      · rw [marks, List.filterMap_map] at received
        simp only [Function.comp_def, id, List.filterMap_some] at received
        obtain ⟨rfl, nothing⟩ := no_message lines bothWithin received
        obtain ⟨rfl, rfl⟩ := List.append_eq_nil_iff.mp nothing
        rw [BufReader.eq_done reliable marks]
        exact ⟨[], .done, rfl, rfl⟩
      · have bytes : message ++ part ++ later.filterMap id =
            messages.flatten := by
          rw [← received, marks]
          simp [List.filterMap_append, List.filterMap_map, Function.comp_def]
        have fits := part_of_message lines bothWithin bytes
        rw [List.length_append] at fits
        obtain ⟨after, rfl, afterReliable, read⟩ := readLine_timeout small
          reliable partWithin marks [] (by rw [List.length_nil]; omega)
        obtain ⟨results, reads, returns, same⟩ := induction after.marks.length
          (by
            rw [marks, List.length_append, List.length_cons]
            omega) afterReliable bothWithin lines bytes rfl
        have reported : readJson parse reader =
            (.error (.timeout "QMP read"), after) := by
          rw [readJson, readJsonWithCapacity, read]
        have delivered : deliveries reader.marks message [] =
            deliveries after.marks (message ++ part) [] := by
          rw [marks, deliveries_part partWithin, deliveries]
        rw [delivered]
        exact ⟨_, .read (BufReader.ne_done none (by simp [marks]))
          reported reads, returns, same⟩
      · have bytes : message ++ part ++ newline :: later.filterMap id =
            messages.flatten := by
          rw [← received, marks]
          simp [List.filterMap_append, List.filterMap_map, Function.comp_def]
        obtain ⟨others, rfl, rest⟩ := first_message lines bothWithin bytes
        have fits := (lines _ List.mem_cons_self).2
        rw [List.append_assoc, List.length_append] at fits
        obtain ⟨after, rfl, afterReliable, read⟩ := readLine_line small
          reliable partWithin marks [] (by rw [List.length_nil]; omega)
        obtain ⟨results, reads, returns, same⟩ := induction after.marks.length
          (by
            rw [marks, List.length_append, List.length_map, List.length_append,
              List.length_singleton]
            omega) afterReliable List.not_mem_nil
          (fun other member => lines other (List.mem_cons_of_mem _ member)) rest
          rfl
        have reported : readJson parse reader =
            (parseLine parse (part ++ [newline]), after) := by
          rw [readJson, readJsonWithCapacity, read, List.nil_append]
        have delivered : deliveries reader.marks message [] =
            ⟨message ++ (part ++ [newline]), part ++ [newline]⟩ ::
              deliveries after.marks [] [] := by
          rw [marks, deliveries_line partWithin, List.nil_append]
        rw [delivered]
        refine ⟨_, .read (BufReader.ne_done (some newline)
          (by simp [marks])) reported reads, ?_, ?_⟩
        · rw [returned, List.filter_cons_of_pos
            (by rw [timedOut_parseLine]; rfl), List.map_cons, ← returns]
          rfl
        · rw [List.map_cons, same, List.append_assoc]

def SocketEvent.bytes : SocketEvent → List UInt8
  | .chunk first rest => first :: rest
  | _ => []

theorem marks_received {script : List SocketEvent}
    (reliable : BufReader.Reliable ⟨[], script⟩) :
    (BufReader.marks ⟨[], script⟩).filterMap id =
      script.flatMap SocketEvent.bytes := by
  induction script with
  | nil => rfl
  | cons event script induction =>
      have rest := induction fun error member =>
        reliable error (List.mem_cons_of_mem _ member)
      simp only [BufReader.marks, List.map_nil, List.nil_append,
        List.flatMap_cons, List.filterMap_append] at rest ⊢
      rw [rest]
      cases event with
      | chunk first bytes =>
          simp [SocketEvent.marks, SocketEvent.bytes, List.filterMap_map,
            Function.comp_def]
      | timeout => rfl
      | failed error => rfl

/-- Timeouts that fall between messages only lose nothing. -/
theorem deliveries_between {arrivals : List (Nat × List UInt8)}
    (lines : ∀ arrival ∈ arrivals, IsLine arrival.2) :
    deliveries (arrivals.flatMap fun arrival =>
        List.replicate arrival.1 none ++ arrival.2.map some) [] [] =
      arrivals.map fun arrival => ⟨arrival.2, arrival.2⟩ := by
  induction arrivals with
  | nil => rfl
  | cons arrival arrivals induction =>
      obtain ⟨waits, message⟩ := arrival
      obtain ⟨body, within, rfl⟩ := lines _ List.mem_cons_self
      have rest := induction fun other member =>
        lines other (List.mem_cons_of_mem _ member)
      have waited : ∀ later, deliveries (List.replicate waits none ++ later) [] [] =
          deliveries later [] [] := by
        intro later
        clear lines
        induction waits with
        | zero => rfl
        | succ waits induction =>
            rw [List.replicate_succ, List.cons_append, deliveries, induction]
      rw [List.flatMap_cons, List.append_assoc, waited, deliveries_line within,
        rest]
      rfl

/-- Successive calls return the messages of the stream, however it is cut into
chunks, exactly when every message reads the same from what came of it after the
last timeout in it. -/
theorem qmp_messages_returned_iff (parse : List UInt8 → Except String Json)
    {script : List SocketEvent}
    (reliable : ∀ error, SocketEvent.failed error ∉ script)
    {messages : List (List UInt8)}
    (lines : ∀ message ∈ messages, IsLine message ∧
      message.length ≤ qmpMessageCapacity.toNat)
    (received : script.flatMap SocketEvent.bytes = messages.flatten) :
    (∃ results, Reads parse ⟨[], script⟩ results ∧
        returned results = messages.map (parseLine parse)) ↔
      ∀ delivery ∈ deliveries (BufReader.marks ⟨[], script⟩) [] [],
        parseLine parse delivery.kept = parseLine parse delivery.message := by
  have start : BufReader.Reliable ⟨[], script⟩ := reliable
  obtain ⟨results, reads, returns, sent⟩ := reads_deliveries parse start
    List.not_mem_nil lines (by rw [marks_received start, received]; rfl)
  rw [← List.map_eq_map_iff]
  constructor
  · intro given
    obtain ⟨again, readsAgain, whole⟩ := given
    rw [reads.unique readsAgain, whole, ← sent, List.map_map] at returns
    exact returns.symm
  · intro alike
    refine ⟨results, reads, ?_⟩
    rw [returns, alike, ← sent, List.map_map]
    rfl

/-! One event, whose text the library reads whole and rejects once its start
is missing. -/

def stopStart : List UInt8 := [123, 34, 101, 118, 101, 110, 116, 34, 58]

def stopEnd : List UInt8 := [34, 83, 84, 79, 80, 34, 125, 10]

def parseStop (text : List UInt8) : Except String Json :=
  if text = stopStart ++ stopEnd then
    .ok (.object [("event", .string "STOP")])
  else
    .error "trailing characters at line 1 column 7"

theorem stopMessage_isLine : IsLine (stopStart ++ stopEnd) :=
  ⟨stopStart ++ stopEnd.dropLast, by decide, by decide⟩

theorem stopMessage_lines : ∀ message ∈ [stopStart ++ stopEnd],
    IsLine message ∧ message.length ≤ qmpMessageCapacity.toNat := by
  intro message member
  rw [List.mem_singleton.mp member]
  exact ⟨stopMessage_isLine, by decide⟩

theorem qmp_timeout_inside_message :
    let script : List SocketEvent :=
      [.chunk 123 stopStart.tail, .timeout, .chunk 34 stopEnd.tail]
    script.flatMap SocketEvent.bytes = [stopStart ++ stopEnd].flatten ∧
      ¬ ∃ results, Reads parseStop ⟨[], script⟩ results ∧
        returned results =
          [stopStart ++ stopEnd].map (parseLine parseStop) := by
  intro script
  have reliable : BufReader.Reliable ⟨[], script⟩ := by
    intro error member
    simp [script] at member
  have received : script.flatMap SocketEvent.bytes =
      [stopStart ++ stopEnd].flatten := by
    decide
  refine ⟨received, ?_⟩
  intro given
  obtain ⟨results, reads, whole⟩ := given
  obtain ⟨again, readsAgain, returns, _⟩ := reads_deliveries parseStop reliable
    List.not_mem_nil stopMessage_lines
    (by rw [marks_received reliable, received]; rfl)
  have delivered : deliveries (BufReader.marks ⟨[], script⟩) [] [] =
      [⟨stopStart ++ stopEnd, stopEnd⟩] := by
    decide
  rw [reads.unique readsAgain, returns, delivered] at whole
  have rejected : parseLine parseStop stopEnd = .error (.backend
      "invalid QMP JSON: trailing characters at line 1 column 7") := rfl
  have accepted : parseLine parseStop (stopStart ++ stopEnd) =
      .ok (.object [("event", .string "STOP")]) := rfl
  have same : parseLine parseStop stopEnd =
      parseLine parseStop (stopStart ++ stopEnd) := (List.cons.inj whole).1
  rw [rejected, accepted] at same
  contradiction

theorem qmp_timeout_before_message :
    let script : List SocketEvent :=
      [.timeout, .chunk 123 stopStart.tail, .chunk 34 stopEnd.tail]
    ∃ results, Reads parseStop ⟨[], script⟩ results ∧
      returned results =
        [stopStart ++ stopEnd].map (parseLine parseStop) := by
  intro script
  refine (qmp_messages_returned_iff parseStop (by simp [script])
    stopMessage_lines (by decide)).mpr ?_
  have delivered : deliveries (BufReader.marks ⟨[], script⟩) [] [] =
      [⟨stopStart ++ stopEnd, stopStart ++ stopEnd⟩] := by
    decide
  intro delivery member
  rw [delivered, List.mem_singleton] at member
  rw [member]

end LibVmi.Qemu
