import LibVmi.Data.Checked

namespace LibVmi.Data.Budget

/-! Amounts drawn from a shared counter up to a capacity. Whoever draws reads
the counter and tries to replace what it read by the sum, until the sum is past
the capacity or the counter has not moved in between. -/

def reserved (capacity current count : Nat) : Option Nat :=
  (Usize.checkedAdd current count).filter (· ≤ capacity)

inductive Turn where
  | refused
  | granted (next : Nat)
  | observed (current : Nat)
  deriving DecidableEq, Repr

/-- One turn of the loop. The weak exchange may fail although the counter is
still what was read. -/
def turn (capacity counter current count : Nat) (spurious : Bool) : Turn :=
  match reserved capacity current count with
  | none => .refused
  | some next =>
      if counter = current ∧ ¬ spurious then .granted next else .observed counter

variable {capacity counter current count : Nat} {spurious : Bool}

theorem reserved_eq_some {next : Nat} :
    reserved capacity current count = some next →
      current + count = next ∧ next ≤ capacity := by
  intro found
  rw [reserved, Option.filter_eq_some_iff, Usize.checkedAdd_eq_some,
    decide_eq_true_eq] at found
  omega

theorem reserved_eq_none (representable : capacity < Usize.limit)
    (missing : reserved capacity current count = none) :
    capacity < current + count := by
  by_contra fits
  have added : Usize.checkedAdd current count = some (current + count) :=
    Usize.checkedAdd_eq_some.mpr (by omega)
  rw [reserved, added, Option.filter_some, if_pos (by simpa using fits)]
    at missing
  contradiction

theorem turn_granted {next : Nat}
    (granted : turn capacity counter current count spurious = .granted next) :
    next = counter + count ∧ next ≤ capacity := by
  unfold turn at granted
  split at granted
  · contradiction
  · rename_i sum found
    split at granted
    · rename_i unmoved
      obtain rfl := Turn.granted.inj granted
      obtain ⟨sumEq, bound⟩ := reserved_eq_some found
      exact ⟨by omega, bound⟩
    · contradiction

theorem turn_observed {seen : Nat}
    (observed : turn capacity counter current count spurious =
      .observed seen) : seen = counter := by
  unfold turn at observed
  split at observed
  · contradiction
  · split at observed
    · contradiction
    · exact (Turn.observed.inj observed).symm

theorem turn_refused (representable : capacity < Usize.limit)
    (refused : turn capacity counter current count spurious = .refused) :
    capacity < current + count := by
  unfold turn at refused
  split at refused
  · rename_i missing
    exact reserved_eq_none representable missing
  · split at refused <;> contradiction

end LibVmi.Data.Budget
