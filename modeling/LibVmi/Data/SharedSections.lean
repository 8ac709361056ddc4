import LibVmi.Data.Sections

namespace LibVmi.Data

/-! A lock with two guards. A section that never changes the value takes the
guard for reading, and any number of these are inside at once. Another one is
alone. -/

variable {σ ρ : Type}

/-- Nothing that the section does changes the value. -/
inductive Section.Reads : Section σ ρ → Prop
  | perform {γ : Type} {act : σ → σ × γ} {next : γ → Section σ ρ}
      (unchanged : ∀ value, (act value).1 = value)
      (rest : ∀ answer, (next answer).Reads) : Reads (.perform act next)
  | unlock {rest : Code σ ρ} : Reads (.unlock rest)

theorem Section.Reads.run_fst {body : Section σ ρ} (reads : body.Reads)
    (value : σ) : (body.run value).1 = value := by
  induction reads generalizing value with
  | perform unchanged _ induction =>
      rw [Section.run, unchanged, induction]
  | unlock => rfl

theorem Section.reads_perform_iff {γ : Type} {act : σ → σ × γ}
    {next : γ → Code σ ρ} :
    (Section.perform act fun answer => .unlock (next answer)).Reads ↔
      ∀ value, (act value).1 = value := by
  constructor
  · intro reads
    cases reads with
    | perform unchanged _ => exact unchanged
  · intro unchanged
    exact .perform unchanged fun _ => .unlock

/-- The lock with the readers that are inside. -/
structure Shared (σ ρ : Type) : Type 1 extends Locked σ ρ where
  readers : Nat → Option (Section σ ρ)

def Calls.shared (calls : Calls σ ρ) : Shared σ ρ :=
  { calls.free with readers := fun _ => none }

namespace Shared

inductive Interleaved : Shared σ ρ → Move → Shared σ ρ → Prop
  | acquire {shared : Shared σ ρ} {caller : Nat} {body : Section σ ρ}
      (free : shared.holder = none)
      (empty : ∀ reader, shared.readers reader = none)
      (wants : shared.codes caller = .lock body) (writes : ¬ body.Reads) :
      Interleaved shared (.acquire caller)
        { shared with holder := some (caller, body) }
  | perform {shared : Shared σ ρ} {caller : Nat} {γ : Type}
      {act : σ → σ × γ} {next : γ → Section σ ρ}
      (holds : shared.holder = some (caller, .perform act next)) :
      Interleaved shared (.perform caller)
        { shared with
          value := (act shared.value).1
          holder := some (caller, next (act shared.value).2) }
  | release {shared : Shared σ ρ} {caller : Nat} {rest : Code σ ρ}
      (holds : shared.holder = some (caller, .unlock rest)) :
      Interleaved shared (.release caller)
        { shared with
          codes := Function.update shared.codes caller rest
          holder := none }
  | enter {shared : Shared σ ρ} {caller : Nat} {body : Section σ ρ}
      (free : shared.holder = none) (outside : shared.readers caller = none)
      (wants : shared.codes caller = .lock body) (reads : body.Reads) :
      Interleaved shared (.acquire caller)
        { shared with
          readers := Function.update shared.readers caller (some body) }
  | observe {shared : Shared σ ρ} {caller : Nat} {γ : Type}
      {act : σ → σ × γ} {next : γ → Section σ ρ}
      (inside : shared.readers caller = some (.perform act next)) :
      Interleaved shared (.perform caller)
        { shared with
          value := (act shared.value).1
          readers := Function.update shared.readers caller
            (some (next (act shared.value).2)) }
  | leave {shared : Shared σ ρ} {caller : Nat} {rest : Code σ ρ}
      (inside : shared.readers caller = some (.unlock rest)) :
      Interleaved shared (.release caller)
        { shared with
          codes := Function.update shared.codes caller rest
          readers := Function.update shared.readers caller none }

/-- The value is the serial one while readers are inside, and each of them sees
what its section alone would see. -/
structure Settles (serial : Calls σ ρ) (shared : Shared σ ρ) : Prop
    extends Locked.Settles serial shared.toLocked where
  reading : ∀ reader rest, shared.readers reader = some rest →
    shared.holder = none ∧ rest.Reads ∧
      ∃ body, serial.codes reader = .lock body ∧
        rest.run shared.value = body.run shared.value

section Steps

variable {serial : Calls σ ρ} {shared : Shared σ ρ}

theorem Settles.start (calls : Calls σ ρ) : Settles calls calls.shared where
  toSettles := .free calls
  reading := by
    intro reader rest inside
    cases inside

theorem Settles.acquire (settles : Settles serial shared) {caller : Nat}
    {body : Section σ ρ} (free : shared.holder = none)
    (empty : ∀ reader, shared.readers reader = none)
    (wants : shared.codes caller = .lock body) :
    Settles serial { shared with holder := some (caller, body) } where
  toSettles := settles.toSettles.acquire free wants
  reading := by
    intro reader rest inside
    have outside := empty reader
    rw [show shared.readers reader = some rest from inside] at outside
    cases outside

/-- While one caller holds the lock nobody reads. -/
theorem Settles.alone (settles : Settles serial shared)
    {holder : Nat × Section σ ρ} (held : shared.holder = some holder)
    {reader : Nat} {rest : Section σ ρ} :
    shared.readers reader ≠ some rest := by
  intro inside
  have free := (settles.reading reader rest inside).1
  rw [held] at free
  cases free

theorem Settles.perform (settles : Settles serial shared) {caller : Nat}
    {γ : Type} {act : σ → σ × γ} {next : γ → Section σ ρ}
    (holds : shared.holder = some (caller, .perform act next)) :
    Settles serial
      { shared with
        value := (act shared.value).1
        holder := some (caller, next (act shared.value).2) } where
  toSettles := settles.toSettles.perform holds
  reading := fun _ _ inside => absurd inside (settles.alone holds)

theorem Settles.release (settles : Settles serial shared) {caller : Nat}
    {rest : Code σ ρ} (holds : shared.holder = some (caller, .unlock rest)) :
    ∃ next, serial.Serially caller next ∧
      Settles next
        { shared with
          codes := Function.update shared.codes caller rest
          holder := none } := by
  obtain ⟨next, turn, settled⟩ := settles.toSettles.release holds
  exact ⟨next, turn, settled,
    fun _ _ inside => absurd inside (settles.alone holds)⟩

theorem Settles.enter (settles : Settles serial shared) {caller : Nat}
    {body : Section σ ρ} (free : shared.holder = none)
    (wants : shared.codes caller = .lock body) (reads : body.Reads) :
    Settles serial
      { shared with
        readers := Function.update shared.readers caller (some body) } where
  toSettles := settles.toSettles
  reading := by
    intro reader rest inside
    by_cases same : reader = caller
    · subst same
      cases (Function.update_self reader _ shared.readers).symm.trans inside
      exact ⟨free, reads, body, settles.codes ▸ wants, rfl⟩
    · exact settles.reading reader rest
        ((Function.update_of_ne same _ shared.readers).symm.trans inside)

theorem Settles.observe (settles : Settles serial shared) {caller : Nat}
    {γ : Type} {act : σ → σ × γ} {next : γ → Section σ ρ}
    (inside : shared.readers caller = some (.perform act next)) :
    Settles serial
      { shared with
        value := (act shared.value).1
        readers := Function.update shared.readers caller
          (some (next (act shared.value).2)) } := by
  obtain ⟨free, reads, body, wants, sees⟩ := settles.reading _ _ inside
  cases reads with
  | perform unchanged reads =>
      rw [Section.run] at sees
      rw [unchanged] at sees ⊢
      refine ⟨⟨settles.codes, settles.closed, settles.opened⟩, ?_⟩
      intro reader rest found
      by_cases same : reader = caller
      · subst same
        cases (Function.update_self reader _ shared.readers).symm.trans found
        exact ⟨free, reads _, body, wants, sees⟩
      · exact settles.reading reader rest
          ((Function.update_of_ne same _ shared.readers).symm.trans found)

theorem Settles.leave (settles : Settles serial shared) {caller : Nat}
    {rest : Code σ ρ} (inside : shared.readers caller = some (.unlock rest)) :
    ∃ next, serial.Serially caller next ∧
      Settles next
        { shared with
          codes := Function.update shared.codes caller rest
          readers := Function.update shared.readers caller none } := by
  obtain ⟨free, _, body, wants, sees⟩ := settles.reading _ _ inside
  have value := settles.closed free
  have turned : serial.settle caller (body.run serial.value) =
      ⟨shared.value, Function.update shared.codes caller rest⟩ := by
    rw [← value, ← sees, settles.codes]
    rfl
  refine ⟨_, .turn wants, ?_⟩
  rw [turned]
  refine ⟨⟨rfl, fun _ => rfl, ?_⟩, ?_⟩
  · intro other later held
    rw [show shared.holder = some (other, later) from held] at free
    cases free
  · intro reader later found
    by_cases same : reader = caller
    · subst same
      cases (Function.update_self reader _ shared.readers).symm.trans found
    · have still := settles.reading reader later
        ((Function.update_of_ne same _ shared.readers).symm.trans found)
      refine ⟨still.1, still.2.1, ?_⟩
      obtain ⟨other, wanted, agrees⟩ := still.2.2
      refine ⟨other, ?_, agrees⟩
      change Function.update shared.codes caller rest reader = _
      rw [Function.update_of_ne same, settles.codes, wanted]

end Steps

/-- Readers that overlap do what they would one after the other, in the order in
which they leave. -/
theorem serializes {start : Calls σ ρ} {moves : List Move}
    {final : Shared σ ρ} (run : Run Interleaved start.shared moves final) :
    ∃ serial, Run Calls.Serially start (moves.filterMap Move.released) serial ∧
      Settles serial final := by
  have begun : ∃ serial, Run Calls.Serially start
      (([] : List Move).filterMap Move.released) serial ∧
        Settles serial start.shared := ⟨start, .nil, .start start⟩
  refine run.history (fun past current => ∃ serial,
    Run Calls.Serially start (past.filterMap Move.released) serial ∧
      Settles serial current) ?_ begun
  intro past current move next given stepped
  obtain ⟨serial, before, settles⟩ := given
  cases stepped with
  | acquire free empty wants _ =>
      exact ⟨serial, Calls.order_of_quiet before rfl,
        settles.acquire free empty wants⟩
  | perform holds =>
      exact ⟨serial, Calls.order_of_quiet before rfl, settles.perform holds⟩
  | release holds =>
      obtain ⟨after, turn, settled⟩ := settles.release holds
      exact ⟨after, Calls.order_of_release before turn, settled⟩
  | enter free _ wants reads =>
      exact ⟨serial, Calls.order_of_quiet before rfl,
        settles.enter free wants reads⟩
  | observe inside =>
      exact ⟨serial, Calls.order_of_quiet before rfl, settles.observe inside⟩
  | leave inside =>
      obtain ⟨after, turn, settled⟩ := settles.leave inside
      exact ⟨after, Calls.order_of_release before turn, settled⟩

/-- Nothing stands still before every call has ended. -/
theorem proceeds (shared : Shared σ ρ) {caller : Nat}
    (unfinished : ∀ result, shared.codes caller ≠ .finish result) :
    ∃ move next, Interleaved shared move next := by
  by_cases empty : ∀ reader, shared.readers reader = none
  · cases held : shared.holder with
    | none =>
        cases code : shared.codes caller with
        | finish result => exact absurd code (unfinished result)
        | lock body =>
            by_cases reads : body.Reads
            · exact ⟨_, _, .enter held (empty caller) code reads⟩
            · exact ⟨_, _, .acquire held empty code reads⟩
    | some holder =>
        obtain ⟨holder, rest⟩ := holder
        cases rest with
        | perform act next => exact ⟨_, _, .perform held⟩
        | unlock rest => exact ⟨_, _, .release held⟩
  · simp only [not_forall] at empty
    obtain ⟨reader, inside⟩ := empty
    obtain ⟨rest, inside⟩ := Option.ne_none_iff_exists'.mp inside
    cases rest with
    | perform act next => exact ⟨_, _, .observe inside⟩
    | unlock rest => exact ⟨_, _, .leave inside⟩

end Shared

end LibVmi.Data
