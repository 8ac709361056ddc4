import LibVmi.Data.Reader
import Mathlib.Logic.Relation

namespace LibVmi.Data

/-! Reading a source to its end, in chunks, up to a number of bytes. The loop
stops at a limit of its own, where one more read tells the end from a source
that goes on. -/

structure Refusals (ε : Type*) where
  read : String → ε
  grow : ε
  exceeds : ε

/-- What one turn of the loop leaves, and the result where it is the last. -/
structure CaptureTurn (ε : Type*) where
  source : Source
  held : Buffer
  result : Option (Except ε Buffer)

section Capture

variable {ε : Type*} (refusals : Refusals ε) (chunkSize limit maximum : Nat)

def captureTurn (source : Source) (held : Buffer) : CaptureTurn ε :=
  let remaining := limit - held.length
  if remaining = 0 then
    match readRetry source 1 with
    | (next, .error error) => ⟨next, held, some (.error (refusals.read error))⟩
    | (next, .ok sentinel) =>
        if sentinel ≠ [] then ⟨next, held, some (.error refusals.exceeds)⟩
        else ⟨next, held, some (.ok held)⟩
  else
    match readRetry source (min remaining chunkSize) with
    | (next, .error error) => ⟨next, held, some (.error (refusals.read error))⟩
    | (next, .ok chunk) =>
        if chunk = [] then ⟨next, held, some (.ok held)⟩
        else
          match Buffer.allocate (held.bytes ++ chunk) with
          | none => ⟨next, held, some (.error refusals.grow)⟩
          | some longer =>
              if maximum < longer.length then
                ⟨next, longer, some (.error refusals.exceeds)⟩
              else ⟨next, longer, none⟩

variable {refusals chunkSize limit maximum}

/-- A turn that is not the last has read something, and within the limit. -/
theorem captureTurn_onward {source next : Source} {held longer : Buffer}
    (turn : captureTurn refusals chunkSize limit maximum source held =
      ⟨next, longer, none⟩) :
    held.length < limit ∧ held.length < longer.length ∧
      longer.length ≤ maximum := by
  unfold captureTurn at turn
  simp only at turn
  split at turn
  · split at turn
    · cases turn
    · split at turn <;> cases turn
  · rename_i more
    split at turn
    · cases turn
    · rename_i chunk _
      split at turn
      · cases turn
      · rename_i nonempty
        split at turn
        · cases turn
        · rename_i allocated
          split at turn
          · cases turn
          · rename_i within
            cases turn
            have lengths := Buffer.length_of_allocate allocated
            have positive := List.length_pos_iff.mpr nonempty
            omega

variable (refusals chunkSize limit maximum)

def capture (source : Source) (held : Buffer) : Except ε Buffer :=
  match _turn : captureTurn refusals chunkSize limit maximum source held with
  | ⟨_, _, some result⟩ => result
  | ⟨next, longer, none⟩ => capture next longer
termination_by limit - held.length
decreasing_by
  have onward := captureTurn_onward _turn
  omega

/-- A turn after which the loop goes on. -/
def Onward (state next : Source × Buffer) : Prop :=
  captureTurn refusals chunkSize limit maximum state.1 state.2 =
    ⟨next.1, next.2, none⟩

variable {refusals chunkSize limit maximum}

theorem capture_eq_of_result {source : Source} {held : Buffer}
    {result : Except ε Buffer}
    (last : (captureTurn refusals chunkSize limit maximum source held).result =
      some result) :
    capture refusals chunkSize limit maximum source held = result := by
  rw [capture]
  split
  · rename_i turn
    rw [turn] at last
    exact Option.some.inj last
  · rename_i turn
    rw [turn] at last
    contradiction

theorem capture_onward {state next : Source × Buffer}
    (turn : Onward refusals chunkSize limit maximum state next) :
    capture refusals chunkSize limit maximum state.1 state.2 =
      capture refusals chunkSize limit maximum next.1 next.2 := by
  rw [capture]
  split
  · rename_i other
    rw [turn] at other
    cases other
  · rename_i other
    rw [turn] at other
    cases other
    rfl

/-- No turn brings more than the limit leaves room for. -/
theorem captureTurn_held (source : Source) {held : Buffer}
    (within : held.length ≤ limit) :
    (captureTurn refusals chunkSize limit maximum source held).held.length ≤
      limit := by
  unfold captureTurn
  simp only
  split
  · split
    · exact within
    · split <;> exact within
  · split
    · exact within
    · rename_i next chunk read
      split
      · exact within
      · split
        · exact within
        · rename_i longer allocated
          have lengths := Buffer.length_of_allocate allocated
          have taken := (readRetry_splits read).2
          split <;>
            · change longer.length ≤ limit
              omega

/-- What the loop holds between and after its turns. -/
theorem onward_reached (covers : maximum ≤ limit) {source : Source}
    {held : Buffer} (within : held.length ≤ maximum)
    {state : Source × Buffer}
    (reached : Relation.ReflTransGen
      (Onward refusals chunkSize limit maximum) (source, held) state) :
    state.2.length ≤ maximum ∧
      (captureTurn refusals chunkSize limit maximum state.1
        state.2).held.length ≤ limit ∧
      capture refusals chunkSize limit maximum source held =
        capture refusals chunkSize limit maximum state.1 state.2 := by
  induction reached with
  | refl => exact ⟨within, captureTurn_held _ (within.trans covers), rfl⟩
  | tail _ turn induction =>
      obtain ⟨_, _, bounded⟩ := captureTurn_onward turn
      exact ⟨bounded, captureTurn_held _ (bounded.trans covers),
        induction.2.2.trans (capture_onward turn)⟩

/-- A turn on a source that does not fail. -/
inductive Turns (refusals : Refusals ε) (chunkSize limit maximum : Nat)
    (source : Source) (held : Buffer) : Prop
  | ended (nothing : source.bytes = [])
      (last : (captureTurn refusals chunkSize limit maximum source
        held).result = some (.ok held))
  | refused (error : ε)
      (tooLong : 2 ^ 63 ≤ held.length + source.bytes.length ∨
        maximum < held.length + source.bytes.length)
      (last : (captureTurn refusals chunkSize limit maximum source
        held).result = some (.error error))
  | onward {next : Source} {longer : Buffer} {chunk : List UInt8}
      (reliable : next.Reliable) (nonempty : chunk ≠ [])
      (read : source.bytes = chunk ++ next.bytes)
      (grown : longer.bytes = held.bytes ++ chunk)
      (within : longer.length ≤ maximum)
      (turn : Onward refusals chunkSize limit maximum (source, held)
        (next, longer))

theorem turns (refusals : Refusals ε) {source : Source}
    (reliable : source.Reliable) (positive : 0 < chunkSize)
    (covers : maximum ≤ limit) {held : Buffer}
    (within : held.length ≤ maximum) :
    Turns refusals chunkSize limit maximum source held := by
  by_cases full : limit - held.length = 0
  · obtain ⟨next, sentinel, read, _⟩ := readRetry_reliable reliable 1
    by_cases empty : sentinel = []
    · rw [empty] at read
      refine .ended (readRetry_ended Nat.one_pos read) ?_
      simp only [captureTurn, full, if_true, read, empty, ne_eq, not_true,
        if_false]
    · have nonempty := List.length_pos_iff.mpr empty
      have total := congrArg List.length (readRetry_splits read).1
      rw [List.length_append] at total
      refine .refused refusals.exceeds (.inr (by omega)) ?_
      simp only [captureTurn, full, if_true, read, empty, ne_eq, not_false_iff]
  · obtain ⟨next, chunk, read, nextReliable⟩ := readRetry_reliable reliable
      (min (limit - held.length) chunkSize)
    by_cases empty : chunk = []
    · rw [empty] at read
      refine .ended (readRetry_ended (by omega) read) ?_
      simp only [captureTurn, full, if_false, read, empty, if_true]
    · have splits := (readRetry_splits read).1
      have total := congrArg List.length splits
      rw [List.length_append] at total
      cases allocated : Buffer.allocate (held.bytes ++ chunk) with
      | none =>
          refine .refused refusals.grow (.inl ?_) ?_
          · have large := Buffer.allocate_eq_none.mp allocated
            rw [List.length_append] at large
            change _ ≤ held.length + _ at large
            omega
          · simp only [captureTurn, full, if_false, read, empty, allocated]
      | some longer =>
          have grown := Buffer.allocate_eq_some.mp allocated
          have lengths := Buffer.length_of_allocate allocated
          by_cases exceeds : maximum < longer.length
          · refine .refused refusals.exceeds (.inr (by omega)) ?_
            simp only [captureTurn, full, if_false, read, empty, allocated,
              exceeds, if_true]
          · refine .onward nextReliable empty splits grown
              (Nat.not_lt.mp exceeds) ?_
            simp only [Onward, captureTurn, full, if_false, read, empty,
              allocated, exceeds]

/-- A source that does not fail is read whole exactly where it is not longer
than the maximum. -/
theorem capture_ok_iff {source : Source} (reliable : source.Reliable)
    (positive : 0 < chunkSize) (covers : maximum ≤ limit) {held : Buffer}
    (within : held.length ≤ maximum) {whole : Buffer} :
    capture refusals chunkSize limit maximum source held = .ok whole ↔
      whole.bytes = held.bytes ++ source.bytes ∧ whole.length ≤ maximum := by
  induction distance : source.bytes.length using Nat.strong_induction_on
    generalizing source held with
  | _ distance induction =>
      subst distance
      cases turns refusals reliable positive covers within with
      | ended nothing last =>
          rw [capture_eq_of_result last, nothing, List.append_nil,
            Except.ok.injEq]
          constructor
          · rintro rfl
            exact ⟨rfl, within⟩
          · intro same
            exact (Buffer.ext same.1).symm
      | refused error tooLong last =>
          rw [capture_eq_of_result last]
          refine iff_of_false (fun impossible => by cases impossible) ?_
          rintro ⟨joined, fits⟩
          have lengths := congrArg List.length joined
          rw [List.length_append] at lengths
          have bound := whole.length_lt
          change whole.length = held.length + _ at lengths
          change whole.length < _ at bound
          omega
      | @onward next longer chunk nextReliable nonempty read grown shorter turn =>
          have some := List.length_pos_iff.mpr nonempty
          rw [capture_onward turn, induction next.bytes.length
            (by rw [read, List.length_append]; omega) nextReliable shorter rfl,
            grown, read, List.append_assoc]

/-- The loop ends well only at the end of the source. -/
theorem captureTurn_done (positive : 0 < chunkSize) {source : Source}
    {held whole : Buffer}
    (last : (captureTurn refusals chunkSize limit maximum source held).result =
      some (.ok whole)) : whole = held ∧ source.bytes = [] := by
  unfold captureTurn at last
  simp only at last
  split at last
  · split at last
    · cases last
    · rename_i next sentinel read
      split at last
      · cases last
      · rename_i ended
        rw [not_not.mp ended] at read
        cases last
        exact ⟨rfl, readRetry_ended Nat.one_pos read⟩
  · rename_i room
    split at last
    · cases last
    · rename_i next chunk read
      split at last
      · rename_i empty
        rw [empty] at read
        cases last
        exact ⟨rfl, readRetry_ended (by omega) read⟩
      · split at last
        · cases last
        · split at last <;> cases last

theorem captureTurn_joined {source next : Source} {held longer : Buffer}
    (turn : captureTurn refusals chunkSize limit maximum source held =
      ⟨next, longer, none⟩) :
    longer.bytes ++ next.bytes = held.bytes ++ source.bytes := by
  unfold captureTurn at turn
  simp only at turn
  split at turn
  · split at turn
    · cases turn
    · split at turn <;> cases turn
  · split at turn
    · cases turn
    · rename_i read
      split at turn
      · cases turn
      · split at turn
        · cases turn
        · rename_i allocated
          split at turn
          · cases turn
          · cases turn
            rw [(readRetry_splits read).1, Buffer.allocate_eq_some.mp allocated,
              List.append_assoc]

/-- What is read whole is the source, whatever its reads came to. -/
theorem capture_ok_bytes (positive : 0 < chunkSize) {source : Source}
    {held whole : Buffer}
    (done : capture refusals chunkSize limit maximum source held = .ok whole) :
    whole.bytes = held.bytes ++ source.bytes := by
  fun_induction capture refusals chunkSize limit maximum source held with
  | case1 source held _ _ result turn =>
      subst done
      obtain ⟨rfl, ended⟩ := captureTurn_done positive (by rw [turn])
      rw [ended, List.append_nil]
  | case2 source held next longer turn induction =>
      rw [induction done, captureTurn_joined turn]

end Capture

end LibVmi.Data
