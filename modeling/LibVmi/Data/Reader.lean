import LibVmi.Data.Bytes

namespace LibVmi.Data

/-! Byte sources that are read piece by piece. Each read is decided by the next
event of a script; past its end a read gives all it is asked for. -/

inductive ReadEvent where
  | interrupted
  | failed (error : String)
  /-- At most this many bytes, and one more. -/
  | ready (most : Nat)
  deriving DecidableEq, Repr

inductive ReadError where
  | interrupted
  | failed (error : String)
  deriving DecidableEq, Repr

structure Source where
  bytes : List UInt8
  script : List ReadEvent
  deriving DecidableEq, Repr

namespace Source

def read (source : Source) (capacity : Nat) :
    Source × Except ReadError (List UInt8) :=
  match source.script with
  | [] => (⟨source.bytes.drop capacity, []⟩, .ok (source.bytes.take capacity))
  | .interrupted :: script => (⟨source.bytes, script⟩, .error .interrupted)
  | .failed error :: script => (⟨source.bytes, script⟩, .error (.failed error))
  | .ready most :: script =>
      let count := min capacity (most + 1)
      (⟨source.bytes.drop count, script⟩, .ok (source.bytes.take count))

/-- A source that may be slow and interrupted but does not fail. -/
def Reliable (source : Source) : Prop :=
  ∀ error, ReadEvent.failed error ∉ source.script

theorem read_interrupted {source next : Source} {capacity : Nat}
    (result : source.read capacity = (next, .error .interrupted)) :
    source.script = .interrupted :: next.script ∧
      next.bytes = source.bytes := by
  unfold read at result
  split at result <;>
    simp only [Prod.mk.injEq, reduceCtorEq, and_false, Except.error.injEq]
      at result
  rename_i scriptEq
  rw [← result.1, scriptEq]
  exact ⟨rfl, rfl⟩

theorem read_failed {source next : Source} {capacity : Nat} {error : String}
    (result : source.read capacity = (next, .error (.failed error))) :
    ReadEvent.failed error ∈ source.script := by
  unfold read at result
  split at result <;>
    simp only [Prod.mk.injEq, reduceCtorEq, and_false, Except.error.injEq,
      ReadError.failed.injEq] at result
  rename_i scriptEq
  rw [scriptEq, result.2]
  exact List.mem_cons_self

/-- A read that succeeds takes bytes off the front. -/
theorem read_ok {source next : Source} {capacity : Nat} {chunk : List UInt8}
    (result : source.read capacity = (next, .ok chunk)) :
    ∃ count, count ≤ capacity ∧ (0 < capacity → 0 < count) ∧
      chunk = source.bytes.take count ∧
      next.bytes = source.bytes.drop count ∧
      next.script = source.script.tail := by
  unfold read at result
  split at result <;>
    simp only [Prod.mk.injEq, reduceCtorEq, and_false, Except.ok.injEq]
      at result
  · rename_i scriptEq
    obtain ⟨rfl, rfl⟩ := result
    exact ⟨capacity, Nat.le_refl _, id, rfl, rfl, by rw [scriptEq]; rfl⟩
  · rename_i most script scriptEq
    obtain ⟨rfl, rfl⟩ := result
    exact ⟨min capacity (most + 1), Nat.min_le_left _ _, by omega, rfl, rfl,
      by rw [scriptEq]; rfl⟩

end Source

def readRetry (source : Source) (capacity : Nat) :
    Source × Except String (List UInt8) :=
  match _result : source.read capacity with
  | (next, .error .interrupted) => readRetry next capacity
  | (next, .error (.failed error)) => (next, .error error)
  | (next, .ok chunk) => (next, .ok chunk)
termination_by source.script.length
decreasing_by
  rw [(Source.read_interrupted _result).1]
  exact Nat.lt_succ_self _

theorem readRetry_ok {source next : Source} {capacity : Nat}
    {chunk : List UInt8}
    (result : readRetry source capacity = (next, .ok chunk)) :
    ∃ count, count ≤ capacity ∧ (0 < capacity → 0 < count) ∧
      chunk = source.bytes.take count ∧
      next.bytes = source.bytes.drop count := by
  fun_induction readRetry source capacity with
  | case1 source next again induction =>
      rw [← (Source.read_interrupted again).2]
      exact induction result
  | case2 source next error again => simp at result
  | case3 source next taken again =>
      simp only [Prod.mk.injEq, Except.ok.injEq] at result
      obtain ⟨rfl, rfl⟩ := result
      obtain ⟨count, within, positive, chunkEq, restEq, _⟩ :=
        Source.read_ok again
      exact ⟨count, within, positive, chunkEq, restEq⟩

/-- The bytes that were read stood before the bytes that are left. -/
theorem readRetry_splits {source next : Source} {capacity : Nat}
    {chunk : List UInt8}
    (result : readRetry source capacity = (next, .ok chunk)) :
    source.bytes = chunk ++ next.bytes ∧ chunk.length ≤ capacity := by
  obtain ⟨count, most, _, chunkEq, restEq⟩ := readRetry_ok result
  constructor
  · rw [chunkEq, restEq, List.take_append_drop]
  · rw [chunkEq, List.length_take]
    omega

/-- Nothing is read only at the end. -/
theorem readRetry_ended {source next : Source} {capacity : Nat}
    (positive : 0 < capacity)
    (result : readRetry source capacity = (next, .ok [])) :
    source.bytes = [] := by
  obtain ⟨count, _, some, nothing, _⟩ := readRetry_ok result
  have taken := congrArg List.length nothing
  rw [List.length_take, List.length_nil] at taken
  exact List.length_eq_zero_iff.mp (by omega)

theorem readRetry_reliable {source : Source} (reliable : source.Reliable)
    (capacity : Nat) :
    ∃ next chunk, readRetry source capacity = (next, .ok chunk) ∧
      next.Reliable := by
  fun_induction readRetry source capacity with
  | case1 source next again induction =>
      apply induction
      intro error member
      rw [Source.Reliable, (Source.read_interrupted again).1] at reliable
      exact reliable error (List.mem_cons_of_mem _ member)
  | case2 source next error again =>
      exact absurd (Source.read_failed again) (reliable error)
  | case3 source next chunk again =>
      obtain ⟨_, _, _, _, _, scriptEq⟩ := Source.read_ok again
      refine ⟨next, chunk, rfl, ?_⟩
      intro error member
      rw [scriptEq] at member
      exact reliable error (List.mem_of_mem_tail member)

/-- Reading until a buffer is full. -/
def readExact (source : Source) (needed : Nat) : Except String (List UInt8) :=
  if needed = 0 then .ok []
  else
    match readRetry source needed with
    | (_, .error error) => .error error
    | (next, .ok chunk) =>
        if _empty : chunk = [] then .error "failed to fill whole buffer"
        else do
          let rest ← readExact next (needed - chunk.length)
          return chunk ++ rest
termination_by needed
decreasing_by
  have := List.length_pos_iff.mpr _empty
  omega

theorem readExact_length {source : Source} {needed : Nat}
    {bytes : List UInt8} (result : readExact source needed = .ok bytes) :
    bytes.length = needed := by
  fun_induction readExact source needed generalizing bytes with
  | case1 source =>
      rw [Except.ok.injEq] at result
      exact result ▸ rfl
  | case2 source needed positive next error read => contradiction
  | case3 source needed positive next read => contradiction
  | case4 source needed positive next chunk read filled induction =>
      obtain ⟨rest, restRead, bytesEq⟩ := bind_eq_ok.mp result
      rw [pure_eq_ok, Except.ok.injEq] at bytesEq
      have restLength := induction restRead
      have chunkLength := (readRetry_splits read).2
      rw [← bytesEq, List.length_append, restLength]
      omega

/-- A reliable source fills the buffer with the bytes it holds. -/
theorem readExact_reliable {source : Source} (reliable : source.Reliable)
    {needed : Nat} (within : needed ≤ source.bytes.length) :
    readExact source needed = .ok (source.bytes.take needed) := by
  fun_induction readExact source needed with
  | case1 source => rfl
  | case2 source needed positive next error read =>
      obtain ⟨_, _, again, _⟩ := readRetry_reliable reliable needed
      rw [read] at again
      simp at again
  | case3 source needed positive next read =>
      have nothing := readRetry_ended (Nat.pos_of_ne_zero positive) read
      rw [nothing, List.length_nil] at within
      exact absurd (Nat.le_zero.mp within) positive
  | case4 source needed positive next chunk read filled induction =>
      obtain ⟨again, taken, readAgain, nextReliable⟩ :=
        readRetry_reliable reliable needed
      rw [read] at readAgain
      obtain ⟨rfl, _⟩ := Prod.mk.inj readAgain
      obtain ⟨splits, short⟩ := readRetry_splits read
      rw [splits, List.length_append] at within
      rw [induction nextReliable (by omega), ok_bind, pure_eq_ok, splits,
        List.take_append, List.take_of_length_le short]

end LibVmi.Data
