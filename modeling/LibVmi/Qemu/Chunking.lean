import LibVmi.Qemu.Framing
import Mathlib.Logic.Relation

namespace LibVmi.Qemu

open Data

/-! One call of `read_json_with_capacity` on a stream that arrives in pieces. -/

/-- A reader that is still to deliver a stream, cut in some way into chunks that
memory has room for. -/
structure Cuts (stream : List UInt8) (reader : BufReader) : Prop where
  chunks : ∀ event ∈ reader.script, ∃ first rest,
    event = .chunk first rest ∧ (first :: rest).length < 2 ^ 63
  buffered : reader.buffer.length < 2 ^ 63
  bytes : reader.buffer ++ reader.script.flatMap SocketEvent.bytes = stream

/-- What becomes of a line that is held when a whole stream follows it. -/
def framed (capacity : UInt64) (line stream : List UInt8) :
    Result (List UInt8) :=
  if newline ∈ stream then
    if capacity.toNat < line.length + lineEnd stream then
      .error (messageExceeds capacity)
    else .ok (line ++ stream.take (lineEnd stream))
  else if line ++ stream = [] then .error QmpClient.connectionClosed
  else .error (messageExceeds capacity)

theorem lineEnd_append_of_mem {available : List UInt8}
    (ends : newline ∈ available) (later : List UInt8) :
    lineEnd (available ++ later) = lineEnd available := by
  obtain none | ⟨body, after, within, rfl⟩ := line_split available
  · exact absurd ends none
  · rw [List.append_assoc, List.cons_append, lineEnd_of_newline within,
      lineEnd_of_newline within]

theorem lineEnd_append_of_not_mem {available : List UInt8}
    (within : newline ∉ available) (later : List UInt8) :
    lineEnd (available ++ later) = available.length + lineEnd later := by
  obtain none | ⟨body, after, inside, rfl⟩ := line_split later
  · have neither : newline ∉ available ++ later := by
      rw [List.mem_append, not_or]
      exact ⟨within, none⟩
    rw [lineEnd_of_none neither, lineEnd_of_none none, List.length_append]
  · have neither : newline ∉ available ++ body := by
      rw [List.mem_append, not_or]
      exact ⟨within, inside⟩
    rw [← List.append_assoc, lineEnd_of_newline neither,
      lineEnd_of_newline inside, List.length_append]
    omega

theorem lineEnd_le (available : List UInt8) :
    lineEnd available ≤ available.length := by
  obtain none | ⟨body, after, within, rfl⟩ := line_split available
  · rw [lineEnd_of_none none]
  · rw [lineEnd_of_newline within, List.length_append, List.length_cons]
    omega

/-- Bytes within a line may be moved from the stream to the line. -/
theorem framed_append {capacity : UInt64} {available : List UInt8}
    (within : newline ∉ available) (line later : List UInt8) :
    framed capacity line (available ++ later) =
      framed capacity (line ++ available) later := by
  have member : newline ∈ available ++ later ↔ newline ∈ later := by
    rw [List.mem_append]
    exact or_iff_right within
  unfold framed
  simp only [member, lineEnd_append_of_not_mem within,
    List.take_length_add_append, List.length_append, List.append_assoc,
    Nat.add_assoc]

/-- A chunk that is too long by itself is too long with what follows it. -/
theorem framed_exceeds {capacity : UInt64} {line available : List UInt8}
    (nonempty : available ≠ [])
    (exceeds : capacity.toNat < line.length + lineEnd available)
    (later : List UInt8) :
    framed capacity line (available ++ later) =
      .error (messageExceeds capacity) := by
  by_cases ends : newline ∈ available
  · rw [framed, if_pos (List.mem_append_left _ ends),
      lineEnd_append_of_mem ends, if_pos exceeds]
  · rw [lineEnd_of_none ends] at exceeds
    rw [framed]
    split
    · rw [lineEnd_append_of_not_mem ends, if_pos (by omega)]
    · rw [if_neg (by simp [nonempty])]

theorem framed_nil (capacity : UInt64) (line : List UInt8) :
    framed capacity line [] =
      if line = [] then .error QmpClient.connectionClosed
      else .error (messageExceeds capacity) := by
  rw [framed, if_neg List.not_mem_nil, List.append_nil]

/-- A chunk that ends the line in time gives it, whatever follows. -/
theorem framed_ends {capacity : UInt64} {line available : List UInt8}
    (ends : newline ∈ available)
    (fits : ¬ capacity.toNat < line.length + lineEnd available)
    (later : List UInt8) :
    framed capacity line (available ++ later) =
      .ok (line ++ available.take (lineEnd available)) := by
  rw [framed, if_pos (List.mem_append_left _ ends),
    lineEnd_append_of_mem ends, if_neg fits,
    List.take_append_of_le_length (lineEnd_le available)]

theorem getLast?_take_lineEnd {available : List UInt8}
    (ends : newline ∈ available) :
    (available.take (lineEnd available)).getLast? = some newline := by
  obtain within | ⟨body, after, within, rfl⟩ := line_split available
  · exact absurd ends within
  · rw [lineEnd_of_newline within, List.take_length_add_append]
    simp

/-! One turn of the loop. -/

theorem Cuts.empty {reader : BufReader} (cuts : Cuts [] reader) :
    reader.fillBuf = (.ok [], reader) := by
  obtain ⟨buffer, script⟩ := reader
  obtain ⟨chunks, _, bytes⟩ := cuts
  obtain ⟨rfl, delivered⟩ := List.append_eq_nil_iff.mp bytes
  cases script with
  | nil => rfl
  | cons event script =>
      obtain ⟨first, rest, rfl, _⟩ := chunks event List.mem_cons_self
      cases delivered

/-- Filling the buffer brings the first bytes that are still to come. -/
theorem Cuts.fill {stream : List UInt8} {reader : BufReader}
    (cuts : Cuts stream reader) (more : stream ≠ []) :
    ∃ first rest later filled,
      reader.fillBuf = (.ok (first :: rest), filled) ∧
        (first :: rest).length < 2 ^ 63 ∧
        stream = first :: rest ++ later ∧
        ∀ count ≤ (first :: rest).length,
          Cuts (stream.drop count) (filled.consume count) := by
  obtain ⟨buffer, script⟩ := reader
  obtain ⟨chunks, room, bytes⟩ := cuts
  have rest_le : ∀ {buffer : List UInt8} (count : Nat),
      buffer.length < 2 ^ 63 → (buffer.drop count).length < 2 ^ 63 := by
    intro buffer count bound
    rw [List.length_drop]
    omega
  cases buffer with
  | cons first rest =>
      refine ⟨first, rest, script.flatMap SocketEvent.bytes, _, rfl, room,
        bytes.symm, ?_⟩
      intro count within
      refine ⟨chunks, rest_le count room, ?_⟩
      rw [← bytes, List.drop_append_of_le_length within]
      rfl
  | nil =>
      cases script with
      | nil => exact absurd bytes.symm more
      | cons event script =>
          obtain ⟨first, rest, rfl, small⟩ := chunks event List.mem_cons_self
          refine ⟨first, rest, script.flatMap SocketEvent.bytes,
            ⟨first :: rest, script⟩, rfl, small, bytes.symm, ?_⟩
          intro count within
          refine ⟨fun event member =>
            chunks event (List.mem_cons_of_mem _ member),
            rest_le count small, ?_⟩
          rw [← bytes, List.nil_append, List.flatMap_cons, SocketEvent.bytes,
            List.drop_append_of_le_length within]
          rfl

theorem absorb_exceeds {capacity : UInt64} {line available : List UInt8}
    (counted : line.length + lineEnd available < Usize.limit)
    (exceeds : capacity.toNat < line.length + lineEnd available) :
    absorb capacity line available = .error (messageExceeds capacity) := by
  have total := Usize.checkedAdd_eq_some.mpr ⟨rfl, counted⟩
  rw [absorb, total, okOr_some, ok_bind, rejectIf_pos exceeds, error_bind]

/-- A turn that takes some bytes returns them with the line, or goes on. -/
theorem readLine_absorbed {capacity : UInt64} {reader filled : BufReader}
    {first : UInt8} {rest line chunk : List UInt8}
    (filledEq : reader.fillBuf = (.ok (first :: rest), filled))
    (absorbed : absorb capacity line (first :: rest) = .ok chunk) :
    readLine capacity reader line =
      if chunk.getLast? = some newline then
        (.ok (line ++ chunk), filled.consume (lineEnd (first :: rest)))
      else
        readLine capacity (filled.consume (lineEnd (first :: rest)))
          (line ++ chunk) := by
  rw [readLine_eq, filledEq]
  dsimp only
  rw [absorbed]

theorem readLine_ended {capacity : UInt64} {reader : BufReader}
    (cuts : Cuts [] reader) (line : List UInt8) :
    readLine capacity reader line = (framed capacity line [], reader) := by
  rw [readLine_eq, cuts.empty, framed_nil]
  dsimp only
  split <;> rfl

theorem readLine_exceeds {capacity : UInt64} {reader filled : BufReader}
    {first : UInt8} {rest line : List UInt8}
    (filledEq : reader.fillBuf = (.ok (first :: rest), filled))
    (counted : line.length + lineEnd (first :: rest) < Usize.limit)
    (exceeds : capacity.toNat < line.length + lineEnd (first :: rest))
    (later : List UInt8) :
    readLine capacity reader line =
      (framed capacity line (first :: rest ++ later), filled) := by
  rw [readLine_eq, filledEq,
    framed_exceeds (List.cons_ne_nil first rest) exceeds later]
  dsimp only
  rw [absorb_exceeds counted exceeds]

/-- The whole loop: what it returns is a function of the stream, and a line
that is complete leaves exactly what follows it. -/
theorem readLine_framed {capacity : UInt64} {stream line : List UInt8}
    (allocates : capacity.toNat < 2 ^ 63 ∨
      line.length + stream.length < 2 ^ 63)
    (held : line.length ≤ capacity.toNat)
    {reader : BufReader} (cuts : Cuts stream reader) :
    ∃ next, readLine capacity reader line =
        (framed capacity line stream, next) ∧
      ∀ whole, framed capacity line stream = .ok whole →
        Cuts (stream.drop (lineEnd stream)) next := by
  induction size : stream.length using Nat.strong_induction_on
    generalizing stream line reader with
  | _ size induction =>
      subst size
      by_cases none : stream = []
      · subst none
        refine ⟨reader, readLine_ended cuts line, ?_⟩
        intro whole returned
        rw [framed_nil] at returned
        split at returned <;> cases returned
      · obtain ⟨first, rest, later, filled, filledEq, small, rfl, consumed⟩ :=
          cuts.fill none
        have counted := lineEnd_le (first :: rest)
        rw [List.length_append] at allocates
        by_cases exceeds :
            capacity.toNat < line.length + lineEnd (first :: rest)
        · have limit : line.length + lineEnd (first :: rest) < Usize.limit := by
            unfold Usize.limit
            omega
          refine ⟨filled, readLine_exceeds filledEq limit exceeds later, ?_⟩
          intro whole returned
          rw [framed_exceeds (List.cons_ne_nil first rest) exceeds] at returned
          cases returned
        · have absorbed := absorb_eq_ok.mpr
            ⟨Nat.not_lt.mp exceeds, by omega, rfl⟩
          have turn := readLine_absorbed filledEq absorbed
          by_cases ends : newline ∈ first :: rest
          · rw [if_pos (getLast?_take_lineEnd ends),
              ← framed_ends ends exceeds later] at turn
            refine ⟨filled.consume (lineEnd (first :: rest)), turn, ?_⟩
            intro _ _
            rw [lineEnd_append_of_mem ends]
            exact consumed _ counted
          · have all := lineEnd_of_none ends
            rw [all, List.take_length, if_neg fun last =>
              ends (List.mem_of_getLast? last)] at turn
            rw [all, Nat.not_lt, ← List.length_append] at exceeds
            have left := consumed _ (Nat.le_refl (first :: rest).length)
            rw [List.drop_left] at left
            obtain ⟨next, read, leaves⟩ := induction later.length
              (by rw [List.length_append, List.length_cons]; omega)
              (by rw [List.length_append]; omega) exceeds left rfl
            rw [framed_append ends, lineEnd_append_of_not_mem ends,
              List.drop_length_add_append]
            exact ⟨next, turn.trans read, leaves⟩

/-! The lines that are held on the way. -/

/-- One turn of the loop: the reader after it and the line that is held. -/
inductive Extends (capacity : UInt64) :
    BufReader × List UInt8 → BufReader × List UInt8 → Prop
  | chunk {reader filled : BufReader} {first : UInt8}
      {rest line chunk : List UInt8}
      (incomplete : line.getLast? ≠ some newline)
      (filledEq : reader.fillBuf = (.ok (first :: rest), filled))
      (absorbed : absorb capacity line (first :: rest) = .ok chunk) :
      Extends capacity (reader, line)
        (filled.consume (lineEnd (first :: rest)), line ++ chunk)

/-- A turn of the loop leads to what the call goes on with, or returns. -/
theorem readLine_extends {capacity : UInt64}
    {state next : BufReader × List UInt8} (turn : Extends capacity state next) :
    readLine capacity state.1 state.2 =
      if next.2.getLast? = some newline then (.ok next.2, next.1)
      else readLine capacity next.1 next.2 := by
  obtain ⟨incomplete, filledEq, absorbed⟩ := turn
  rename_i line chunk
  have last : (line ++ chunk).getLast? = some newline ↔
      chunk.getLast? = some newline := by
    rw [List.getLast?_append]
    cases chunk.getLast? with
    | none => exact iff_of_false incomplete (by simp)
    | some byte => exact Iff.rfl
  rw [readLine_absorbed filledEq absorbed]
  simp only [last]

theorem Extends.length {capacity : UInt64}
    {state next : BufReader × List UInt8} (turn : Extends capacity state next) :
    next.2.length ≤ capacity.toNat := by
  obtain ⟨_, _, absorbed⟩ := turn
  obtain ⟨fits, _, rfl⟩ := absorb_eq_ok.mp absorbed
  rw [List.length_append, List.length_take]
  omega

/-- Whatever is held after some turns of a call has passed the length check,
and the call returns it or goes on with it. -/
theorem extends_reached {capacity : UInt64} {state : BufReader × List UInt8}
    {reader : BufReader}
    (reached : Relation.ReflTransGen (Extends capacity) (reader, []) state) :
    state.2.length ≤ capacity.toNat ∧ readLine capacity reader [] =
      if state.2.getLast? = some newline then (.ok state.2, state.1)
      else readLine capacity state.1 state.2 := by
  induction reached with
  | refl => exact ⟨Nat.zero_le _, (if_neg (by simp)).symm⟩
  | tail _ last induction =>
      refine ⟨last.length, ?_⟩
      rw [induction.2, ← readLine_extends last]
      obtain ⟨incomplete, _, _⟩ := last
      exact if_neg incomplete

/-! The outcome of a call. -/

/-- The first line of the stream, where it ends and is not too long. -/
def FirstLine (capacity : UInt64) (stream line : List UInt8) : Prop :=
  ∃ body after, newline ∉ body ∧ stream = body ++ newline :: after ∧
    line = body ++ [newline] ∧ line.length ≤ capacity.toNat

theorem framed_eq_ok {capacity : UInt64} {stream line : List UInt8} :
    framed capacity [] stream = .ok line ↔
      FirstLine capacity stream line := by
  unfold framed FirstLine
  obtain none | ⟨body, after, within, rfl⟩ := line_split stream
  · rw [if_neg none]
    refine iff_of_false ?_ ?_
    · split <;> simp
    · intro given
      obtain ⟨body, after, _, rfl, _⟩ := given
      exact none (by simp)
  · have member : newline ∈ body ++ newline :: after := by simp
    rw [if_pos member, lineEnd_of_newline within, List.take_length_add_append,
      List.length_nil, Nat.zero_add, List.nil_append]
    constructor
    · intro returned
      split at returned
      · cases returned
      · rename_i fits
        cases returned
        refine ⟨body, after, within, rfl, rfl, ?_⟩
        simpa using fits
    · intro given
      obtain ⟨other, rest, inside, same, rfl, fits⟩ := given
      have ends : other = body := by
        have left := lineEnd_of_newline within after
        have right := lineEnd_of_newline inside rest
        rw [same, right] at left
        exact (List.append_inj same (by omega)).1.symm
      subst ends
      rw [List.length_append, List.length_singleton] at fits
      rw [if_neg (Nat.not_lt.mpr fits)]
      rfl

/-- One call on a stream in any chunks: its report depends on the stream
alone; the parser gets the first line exactly where there is one within the
capacity, and what follows that line is left; and no line that is held on the
way is longer than the capacity. -/
theorem framing_independent_of_chunks
    (parse : List UInt8 → Except String Json) {capacity : UInt64}
    {stream : List UInt8}
    (allocates : capacity.toNat < 2 ^ 63 ∨ stream.length < 2 ^ 63) :
    (∀ left right, Cuts stream left → Cuts stream right →
      (readJsonWithCapacity parse capacity left).1 =
        (readJsonWithCapacity parse capacity right).1) ∧
    ∀ reader, Cuts stream reader →
      (∀ line, (readLine capacity reader []).1 = .ok line ↔
        FirstLine capacity stream line) ∧
      (∀ line, FirstLine capacity stream line →
        ∃ next, readJsonWithCapacity parse capacity reader =
            (parseLine parse line, next) ∧
          Cuts (stream.drop line.length) next) ∧
      ((¬ ∃ line, FirstLine capacity stream line) →
        ∃ error, (readJsonWithCapacity parse capacity reader).1 =
          .error error) ∧
      ∀ state,
        Relation.ReflTransGen (Extends capacity) (reader, []) state →
          state.2.length ≤ capacity.toNat ∧ readLine capacity reader [] =
            if state.2.getLast? = some newline then (.ok state.2, state.1)
            else readLine capacity state.1 state.2 := by
  have start : capacity.toNat < 2 ^ 63 ∨
      ([] : List UInt8).length + stream.length < 2 ^ 63 := by
    rwa [List.length_nil, Nat.zero_add]
  have read : ∀ {reader}, Cuts stream reader → _ := fun cuts =>
    readLine_framed start (Nat.zero_le _) cuts
  refine ⟨?_, ?_⟩
  · intro left right leftCuts rightCuts
    obtain ⟨_, leftRead, _⟩ := read leftCuts
    obtain ⟨_, rightRead, _⟩ := read rightCuts
    rw [readJsonWithCapacity, readJsonWithCapacity, leftRead, rightRead]
    cases framed capacity [] stream <;> rfl
  · intro reader cuts
    obtain ⟨next, returned, leaves⟩ := read cuts
    refine ⟨?_, ?_, ?_, fun _ => extends_reached⟩
    · intro line
      rw [returned]
      exact framed_eq_ok
    · intro line first
      have whole := framed_eq_ok.mpr first
      refine ⟨next, ?_, ?_⟩
      · rw [readJsonWithCapacity, returned, whole]
      · obtain ⟨body, after, within, rfl, rfl, _⟩ := first
        have left := leaves _ whole
        rw [lineEnd_of_newline within] at left
        rw [List.length_append, List.length_singleton]
        exact left
    · intro none
      rw [readJsonWithCapacity, returned]
      cases result : framed capacity [] stream with
      | error error => exact ⟨error, rfl⟩
      | ok line => exact absurd ⟨line, framed_eq_ok.mp result⟩ none

theorem framing_of_two_cuts :
    (readJsonWithCapacity (fun _ => .ok .null) 8
        ⟨[], [.chunk 123 [125, 10, 1]]⟩).1 =
      (readJsonWithCapacity (fun _ => .ok .null) 8
        ⟨[123], [.chunk 125 [], .chunk 10 [1]]⟩).1 := by
  have left : Cuts [123, 125, 10, 1] ⟨[], [.chunk 123 [125, 10, 1]]⟩ :=
    ⟨by simp, by decide, rfl⟩
  have right : Cuts [123, 125, 10, 1]
      ⟨[123], [.chunk 125 [], .chunk 10 [1]]⟩ :=
    ⟨by simp, by decide, rfl⟩
  exact (framing_independent_of_chunks _ (.inl (by decide))).1 _ _ left right

end LibVmi.Qemu
