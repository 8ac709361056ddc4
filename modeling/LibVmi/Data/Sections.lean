import LibVmi.Data.Runs
import Mathlib.Logic.Function.Basic

namespace LibVmi.Data

/-! Calls that share a value behind one lock. Outside its sections a call does
nothing that others see, and a section takes no second lock. -/

mutual

inductive Code (σ ρ : Type) : Type 1
  | finish (result : ρ)
  | lock (body : Section σ ρ)

inductive Section (σ ρ : Type) : Type 1
  | perform {γ : Type} (act : σ → σ × γ) (next : γ → Section σ ρ)
  | unlock (rest : Code σ ρ)

end

variable {σ ρ : Type}

/-- A section run from its start to its end. -/
def Section.run : Section σ ρ → σ → σ × Code σ ρ
  | .perform act next, value => (next (act value).2).run (act value).1
  | .unlock rest, value => (value, rest)

structure Calls (σ ρ : Type) : Type 1 where
  value : σ
  codes : Nat → Code σ ρ

/-- The lock is free, or some caller has come to a place in its section. -/
structure Locked (σ ρ : Type) : Type 1 extends Calls σ ρ where
  holder : Option (Nat × Section σ ρ)

inductive Move where
  | acquire (caller : Nat)
  | perform (caller : Nat)
  | release (caller : Nat)
  deriving DecidableEq, Repr

def Move.released : Move → Option Nat
  | .release caller => some caller
  | _ => none

namespace Calls

def free (calls : Calls σ ρ) : Locked σ ρ :=
  { calls with holder := none }

def settle (calls : Calls σ ρ) (caller : Nat) (outcome : σ × Code σ ρ) :
    Calls σ ρ where
  value := outcome.1
  codes := Function.update calls.codes caller outcome.2

/-- One caller after the other, each for a whole section. -/
inductive Serially : Calls σ ρ → Nat → Calls σ ρ → Prop
  | turn {calls : Calls σ ρ} {caller : Nat} {body : Section σ ρ}
      (wants : calls.codes caller = .lock body) :
      Serially calls caller (calls.settle caller (body.run calls.value))

/-- The values that a caller finds at successive turns of its own, whatever the
others do in between. -/
inductive Turns (caller : Nat) : Calls σ ρ → List σ → Prop
  | none {start : Calls σ ρ} : Turns caller start []
  | more {start before after : Calls σ ρ} {order : List Nat}
      {values : List σ} (run : Run Serially start order before)
      (turn : Serially before caller after)
      (rest : Turns caller after values) :
      Turns caller start (before.value :: values)

theorem settle_same (calls : Calls σ ρ) (caller : Nat)
    (outcome : σ × Code σ ρ) :
    (calls.settle caller outcome).codes caller = outcome.2 :=
  Function.update_self ..

theorem settle_other (calls : Calls σ ρ) {caller other : Nat}
    (different : other ≠ caller) (outcome : σ × Code σ ρ) :
    (calls.settle caller outcome).codes other = calls.codes other :=
  Function.update_of_ne different ..

theorem finished_stays {start final : Calls σ ρ} {order : List Nat}
    (run : Run Serially start order final) {caller : Nat} {result : ρ}
    (finished : start.codes caller = .finish result) :
    final.codes caller = .finish result := by
  induction run with
  | nil => exact finished
  | @cons _ _ _ other _ stepped _ induction =>
      apply induction
      cases stepped with
      | turn wants =>
          by_cases same : caller = other
          · subst same
            rw [finished] at wants
            cases wants
          · rw [settle_other _ same, finished]

theorem finished_unique {start final : Calls σ ρ} {order : List Nat}
    (run : Run Serially start order final) {caller : Nat} {result later : ρ}
    (finished : start.codes caller = .finish result)
    (ended : final.codes caller = .finish later) : later = result := by
  have stays := finished_stays run finished
  rw [ended] at stays
  cases stays
  rfl

/-- A call that has gone on has had its turn, at some place in the order. -/
theorem turn_of_run {start final : Calls σ ρ} {order : List Nat}
    (run : Run Serially start order final) {caller : Nat}
    {body : Section σ ρ} (wants : start.codes caller = .lock body)
    {result : ρ} (finished : final.codes caller = .finish result) :
    ∃ earlier before later, order = earlier ++ caller :: later ∧
      Run Serially start earlier before ∧
      before.codes caller = .lock body ∧
      Run Serially (before.settle caller (body.run before.value)) later
        final := by
  induction run with
  | nil =>
      rw [wants] at finished
      cases finished
  | @cons _ _ _ other _ stepped after induction =>
      cases stepped with
      | turn wanted =>
          by_cases same : caller = other
          · subst same
            rw [wants] at wanted
            cases wanted
            exact ⟨[], _, _, rfl, .nil, wants, after⟩
          · obtain ⟨earlier, before, later, rfl, run, still, rest⟩ :=
              induction (by rw [settle_other _ same, wants]) finished
            exact ⟨other :: earlier, before, later, rfl,
              .cons (.turn wanted) run, still, rest⟩

/-- A call of one section returns what the section gives at its turn. -/
theorem result_of_turn {start final : Calls σ ρ} {order : List Nat}
    (run : Run Serially start order final) {caller : Nat}
    {body : Section σ ρ} (wants : start.codes caller = .lock body)
    {outcome : σ → ρ}
    (whole : ∀ value, (body.run value).2 = .finish (outcome value))
    {result : ρ} (finished : final.codes caller = .finish result) :
    ∃ earlier before later, order = earlier ++ caller :: later ∧
      Run Serially start earlier before ∧ result = outcome before.value := by
  obtain ⟨earlier, before, later, split, early, _, late⟩ :=
    turn_of_run run wants finished
  exact ⟨earlier, before, later, split, early, finished_unique late
    ((settle_same _ _ _).trans (whole before.value)) finished⟩

end Calls

namespace Calls

variable {start serial : Calls σ ρ} {past : List Move}

/-- Inside of a section nothing is added to the order of the turns. -/
theorem order_of_quiet
    (run : Run Serially start (past.filterMap Move.released) serial)
    {move : Move} (unreleased : move.released = none) :
    Run Serially start ((past ++ [move]).filterMap Move.released) serial := by
  rwa [List.filterMap_append, List.filterMap_cons_none unreleased,
    List.filterMap_nil, List.append_nil]

theorem order_of_release
    (run : Run Serially start (past.filterMap Move.released) serial)
    {caller : Nat} {next : Calls σ ρ} (turn : serial.Serially caller next) :
    Run Serially start ((past ++ [Move.release caller]).filterMap Move.released)
      next := by
  have released : (Move.release caller).released = some caller := rfl
  rw [List.filterMap_append, List.filterMap_cons_some released,
    List.filterMap_nil]
  exact run.append (.cons turn .nil)

end Calls

namespace Locked

inductive Interleaved : Locked σ ρ → Move → Locked σ ρ → Prop
  | acquire {locked : Locked σ ρ} {caller : Nat} {body : Section σ ρ}
      (free : locked.holder = none) (wants : locked.codes caller = .lock body) :
      Interleaved locked (.acquire caller)
        { locked with holder := some (caller, body) }
  | perform {locked : Locked σ ρ} {caller : Nat} {γ : Type}
      {act : σ → σ × γ} {next : γ → Section σ ρ}
      (holds : locked.holder = some (caller, .perform act next)) :
      Interleaved locked (.perform caller)
        { locked with
          value := (act locked.value).1
          holder := some (caller, next (act locked.value).2) }
  | release {locked : Locked σ ρ} {caller : Nat} {rest : Code σ ρ}
      (holds : locked.holder = some (caller, .unlock rest)) :
      Interleaved locked (.release caller)
        { locked with
          codes := Function.update locked.codes caller rest
          holder := none }

/-- The locked state is the serial one, up to the part of the open section that
has been run. -/
structure Settles (serial : Calls σ ρ) (locked : Locked σ ρ) : Prop where
  codes : locked.codes = serial.codes
  closed : locked.holder = none → locked.value = serial.value
  opened : ∀ caller rest, locked.holder = some (caller, rest) →
    ∃ body, serial.codes caller = .lock body ∧
      rest.run locked.value = body.run serial.value

theorem Settles.free (calls : Calls σ ρ) : Settles calls calls.free where
  codes := rfl
  closed := fun _ => rfl
  opened := by
    intro caller rest held
    cases held

theorem Settles.acquire {serial : Calls σ ρ} {locked : Locked σ ρ}
    (settles : Settles serial locked) {caller : Nat} {body : Section σ ρ}
    (free : locked.holder = none)
    (wants : locked.codes caller = .lock body) :
    Settles serial { locked with holder := some (caller, body) } where
  codes := settles.codes
  closed := by
    intro held
    cases held
  opened := by
    intro other rest held
    cases held
    exact ⟨body, settles.codes ▸ wants, by
      rw [← settles.closed free]⟩

theorem Settles.perform {serial : Calls σ ρ} {locked : Locked σ ρ}
    (settles : Settles serial locked) {caller : Nat} {γ : Type}
    {act : σ → σ × γ} {next : γ → Section σ ρ}
    (holds : locked.holder = some (caller, .perform act next)) :
    Settles serial
      { locked with
        value := (act locked.value).1
        holder := some (caller, next (act locked.value).2) } where
  codes := settles.codes
  closed := by
    intro held
    cases held
  opened := by
    intro other rest held
    cases held
    obtain ⟨body, wants, same⟩ := settles.opened _ _ holds
    exact ⟨body, wants, same⟩

theorem Settles.release {serial : Calls σ ρ} {locked : Locked σ ρ}
    (settles : Settles serial locked) {caller : Nat} {rest : Code σ ρ}
    (holds : locked.holder = some (caller, .unlock rest)) :
    ∃ next, serial.Serially caller next ∧
      Settles next
        { locked with
          codes := Function.update locked.codes caller rest
          holder := none } := by
  obtain ⟨body, wants, same⟩ := settles.opened _ _ holds
  refine ⟨_, .turn wants, ?_, ?_, ?_⟩
  · change _ = Function.update serial.codes caller (body.run serial.value).2
    rw [← same, settles.codes]
    rfl
  · intro _
    change _ = (body.run serial.value).1
    rw [← same]
    rfl
  · intro other later held
    cases held

/-- What any interleaving does, the sections do one after the other, in the
order in which they are left. -/
theorem serializes {start : Calls σ ρ} {moves : List Move}
    {final : Locked σ ρ} (run : Run Interleaved start.free moves final) :
    ∃ serial, Run Calls.Serially start (moves.filterMap Move.released) serial ∧
      Settles serial final := by
  have begun : ∃ serial, Run Calls.Serially start
      (([] : List Move).filterMap Move.released) serial ∧
        Settles serial start.free := ⟨start, .nil, .free start⟩
  refine run.history (fun past current => ∃ serial,
    Run Calls.Serially start (past.filterMap Move.released) serial ∧
      Settles serial current) ?_ begun
  intro past current move next given stepped
  obtain ⟨serial, before, settles⟩ := given
  cases stepped with
  | acquire free wants =>
      exact ⟨serial, Calls.order_of_quiet before rfl,
        settles.acquire free wants⟩
  | perform holds =>
      exact ⟨serial, Calls.order_of_quiet before rfl, settles.perform holds⟩
  | release holds =>
      obtain ⟨after, turn, settled⟩ := settles.release holds
      exact ⟨after, Calls.order_of_release before turn, settled⟩

theorem finishes : (body : Section σ ρ) → (locked : Locked σ ρ) →
    (caller : Nat) → locked.holder = some (caller, body) →
      ∃ moves, Run Interleaved locked moves
          (locked.settle caller (body.run locked.value)).free ∧
        moves.filterMap Move.released = [caller]
  | .perform act next, locked, caller, holds => by
      obtain ⟨moves, run, released⟩ := finishes (next (act locked.value).2)
        { locked with
          value := (act locked.value).1
          holder := some (caller, next (act locked.value).2) } caller rfl
      refine ⟨.perform caller :: moves, .cons (.perform holds) run, ?_⟩
      rw [List.filterMap_cons_none rfl, released]
  | .unlock rest, locked, caller, holds =>
      ⟨[.release caller], .cons (.release holds) .nil, rfl⟩

/-- Whatever the sections do one after the other, some interleaving does. -/
theorem of_serial {start final : Calls σ ρ} {order : List Nat}
    (run : Run Calls.Serially start order final) :
    ∃ moves, Run Interleaved start.free moves final.free ∧
      moves.filterMap Move.released = order := by
  induction run with
  | nil => exact ⟨[], .nil, rfl⟩
  | @cons calls _ _ caller _ stepped _ induction =>
      obtain ⟨moves, run, released⟩ := induction
      cases stepped with
      | @turn body wants =>
          obtain ⟨turns, inside, own⟩ := finishes body
            { calls with holder := some (caller, body) } caller rfl
          refine ⟨.acquire caller :: turns ++ moves,
            Run.append (.cons (.acquire rfl wants) inside) run, ?_⟩
          rw [List.filterMap_append, List.filterMap_cons_none rfl, own,
            released]
          rfl

/-- Nothing stands still before every call has ended. -/
theorem proceeds (locked : Locked σ ρ) {caller : Nat}
    (unfinished : ∀ result, locked.codes caller ≠ .finish result) :
    ∃ move next, Interleaved locked move next := by
  cases held : locked.holder with
  | none =>
      cases code : locked.codes caller with
      | finish result => exact absurd code (unfinished result)
      | lock body => exact ⟨_, _, .acquire held code⟩
  | some holder =>
      obtain ⟨holder, rest⟩ := holder
      cases rest with
      | perform act next => exact ⟨_, _, .perform held⟩
      | unlock rest => exact ⟨_, _, .release held⟩

end Locked

end LibVmi.Data
