import LibVmi.Data.Checked

namespace LibVmi.Data

/-! Numbers drawn from a shared counter. Whoever draws one reads the counter and
tries to replace what it read by the next number, until the counter has not moved
in between. -/

inductive Turn where
  | exhausted
  | taken (next : Nat)
  | observed (current : Nat)
  deriving DecidableEq, Repr

/-- One turn of the loop. The weak exchange may fail although the counter is
still what was read. -/
def compareExchange (counter current : Nat) (spurious : Bool) : Turn :=
  match Usize.checkedAdd current 1 with
  | none => .exhausted
  | some next =>
      if counter = current ∧ ¬ spurious then .taken next else .observed counter

theorem compareExchange_exhausted {counter current : Nat} {spurious : Bool} :
    compareExchange counter current spurious = .exhausted ↔
      Usize.checkedAdd current 1 = none := by
  unfold compareExchange
  split
  · simp_all
  · split <;> simp_all

theorem compareExchange_taken {counter current next : Nat} {spurious : Bool}
    (taken : compareExchange counter current spurious = .taken next) :
    counter = current ∧ Usize.checkedAdd current 1 = some next := by
  unfold compareExchange at taken
  split at taken
  · contradiction
  · split at taken
    · rename_i exchanged
      exact ⟨exchanged.1, by simp_all⟩
    · contradiction

theorem compareExchange_observed {counter current observed : Nat}
    {spurious : Bool}
    (failed : compareExchange counter current spurious = .observed observed) :
    observed = counter := by
  unfold compareExchange at failed
  split at failed
  · contradiction
  · split at failed
    · contradiction
    · exact (Turn.observed.inj failed).symm

/-! Labels that no two holders share. -/

variable {holder label : Type*}

def Unshared (labels : holder → Option label) : Prop :=
  ∀ key first second, key ∈ labels first → key ∈ labels second →
    first = second

/-- One holder may drop its label, keep it, or get one that nobody else has. -/
theorem Unshared.relabel {labels relabelled : holder → Option label}
    (unshared : Unshared labels) (changed : holder)
    (others : ∀ other, other ≠ changed → relabelled other = labels other)
    (fresh : ∀ key ∈ relabelled changed, ∀ other, key ∈ labels other →
      other = changed) : Unshared relabelled := by
  intro key first second inFirst inSecond
  by_cases firstSame : first = changed
  · subst first
    by_contra different
    rw [others second (Ne.symm different)] at inSecond
    exact different (fresh key inFirst second inSecond).symm
  · by_cases secondSame : second = changed
    · subst second
      rw [others first firstSame] at inFirst
      exact fresh key inSecond first inFirst
    · rw [others first firstSame] at inFirst
      rw [others second secondSame] at inSecond
      exact unshared key first second inFirst inSecond

/-- The numbers drawn from a counter that has got to `counter`. -/
structure Tickets (counter : Nat) (drawn : holder → Option Nat) : Prop where
  below : ∀ id, ∀ number ∈ drawn id, number < counter
  unshared : Unshared drawn

namespace Tickets

variable {counter : Nat} {drawn redrawn : holder → Option Nat}

/-- A holder that draws nothing new. -/
theorem keep (tickets : Tickets counter drawn) (changed : holder)
    (others : ∀ other, other ≠ changed → redrawn other = drawn other)
    (kept : ∀ number ∈ redrawn changed, number ∈ drawn changed) :
    Tickets counter redrawn where
  below := by
    intro id number member
    by_cases same : id = changed
    · subst id
      exact tickets.below changed number (kept number member)
    · rw [others id same] at member
      exact tickets.below id number member
  unshared := by
    apply tickets.unshared.relabel changed others
    intro number member other held
    exact tickets.unshared number other changed held (kept number member)

theorem draw (tickets : Tickets counter drawn) (changed : holder)
    (others : ∀ other, other ≠ changed → redrawn other = drawn other)
    (new : redrawn changed = some counter) :
    Tickets (counter + 1) redrawn where
  below := by
    intro id number member
    by_cases same : id = changed
    · subst id
      rw [new, Option.mem_some_iff] at member
      omega
    · rw [others id same] at member
      exact Nat.lt_succ_of_lt (tickets.below id number member)
  unshared := by
    apply tickets.unshared.relabel changed others
    intro number member other held
    rw [new, Option.mem_some_iff] at member
    have bound := tickets.below other number held
    omega

end Tickets

end LibVmi.Data
