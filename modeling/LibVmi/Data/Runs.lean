import Mathlib.Data.List.Basic
import Mathlib.Data.List.Induction

namespace LibVmi.Data

/-! Runs of a labelled step relation. -/

inductive Run {state label : Type*} (step : state → label → state → Prop) :
    state → List label → state → Prop
  | nil {current : state} : Run step current [] current
  | cons {current next final : state} {action : label} {rest : List label} :
      step current action next → Run step next rest final →
        Run step current (action :: rest) final

variable {state label : Type*} {step : state → label → state → Prop}

namespace Run

/-- What one step preserves, a run whose labels are all admitted preserves. -/
theorem invariant (holds : state → Prop) (admitted : label → Prop)
    (preserved : ∀ current action next, holds current → admitted action →
      step current action next → holds next)
    {current final : state} {actions : List label}
    (run : Run step current actions final) (start : holds current)
    (labels : ∀ action ∈ actions, admitted action) : holds final := by
  induction run with
  | nil => exact start
  | cons stepped _ induction =>
      simp only [List.mem_cons, forall_eq_or_imp] at labels
      exact induction (preserved _ _ _ start labels.1 stepped) labels.2

theorem append {first middle last : state} {early late : List label}
    (before : Run step first early middle) (after : Run step middle late last) :
    Run step first (early ++ late) last := by
  induction before with
  | nil => exact after
  | cons stepped _ induction => exact .cons stepped (induction after)

theorem split {first last : state} {early late : List label}
    (run : Run step first (early ++ late) last) :
    ∃ middle, Run step first early middle ∧ Run step middle late last := by
  induction early generalizing first with
  | nil => exact ⟨first, .nil, run⟩
  | cons action rest induction =>
      cases run with
      | cons stepped after =>
          obtain ⟨middle, before, later⟩ := induction after
          exact ⟨middle, .cons stepped before, later⟩

/-- What every step keeps between the labels so far and the state holds of the
labels of a run and the state it ends in. -/
theorem history (holds : List label → state → Prop)
    (kept : ∀ past current action next, holds past current →
      step current action next → holds (past ++ [action]) next)
    {current final : state} {actions : List label}
    (run : Run step current actions final) {past : List label}
    (start : holds past current) : holds (past ++ actions) final := by
  induction run generalizing past with
  | nil => simpa using start
  | cons stepped _ induction =>
      have later := induction (kept _ _ _ _ start stepped)
      simpa using later

end Run

/-- The step relation of a system that answers each action it admits; a label is
an action with its answer. -/
def Answers {action response : Type*}
    (act : state → action → Option (state × response)) (current : state)
    (label : action × response) (next : state) : Prop :=
  act current label.1 = some (next, label.2)

/-- Setting an optional field over and over leaves what was set last. -/
theorem foldl_last_set {action value : Type*} (apply : state → action → state)
    (field : state → Option value) (sets : action → Option value)
    (applied : ∀ current next,
      field (apply current next) = (sets next).or (field current))
    (start : state) (actions : List action) :
    field (actions.foldl apply start) =
      ((actions.filterMap sets).getLast?).or (field start) := by
  induction actions using List.reverseRecOn with
  | nil => rfl
  | append_singleton actions action induction =>
      rw [List.foldl_append, List.foldl_cons, List.foldl_nil, applied,
        induction, List.filterMap_append]
      cases set : sets action with
      | none => simp [set]
      | some value => simp [set]

theorem exists_last_set {action value : Type*} {sets : action → Option value}
    {actions : List action} :
    (∃ last, (actions.filterMap sets).getLast? = some last) ↔
      ∃ next ∈ actions, ∃ value, sets next = some value := by
  rw [← Option.isSome_iff_exists, List.getLast?_isSome, Ne,
    List.eq_nil_iff_forall_not_mem, not_forall]
  simp only [not_not, List.mem_filterMap]
  exact exists_comm.trans (by simp only [exists_and_left])

/-- What holds of one of the values holds of the last, where a last without it
rules it out of all. -/
theorem exists_iff_last {value : Type*} {values : List value}
    {holds : value → Prop} :
    ((∃ held ∈ values, holds held) ↔
        ∃ last, values.getLast? = some last ∧ holds last) ↔
      ∀ last ∈ values.getLast?, ¬ holds last →
        ∀ earlier ∈ values, ¬ holds earlier := by
  constructor
  · intro exact last lastIs fails earlier member held
    obtain ⟨found, foundIs, holdsLast⟩ := exact.mp ⟨earlier, member, held⟩
    obtain rfl := Option.some.inj (foundIs.symm.trans lastIs)
    exact fails holdsLast
  · intro kept
    constructor
    · intro ⟨earlier, member, held⟩
      have nonempty : values ≠ [] := List.ne_nil_of_mem member
      have lastIs := List.getLast?_eq_some_getLast nonempty
      refine ⟨_, lastIs, ?_⟩
      by_contra fails
      exact kept _ lastIs fails earlier member held
    · intro ⟨last, lastIs, held⟩
      exact ⟨last, List.mem_of_getLast? lastIs, held⟩

end LibVmi.Data
