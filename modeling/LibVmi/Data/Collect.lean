import LibVmi.Data.Checked
import Mathlib.Data.List.Sort

namespace LibVmi.Data

/-! Loops that ask about every index below a bound and collect what they find. -/

section Collect

variable {α ε : Type}

def collectRound (find : Nat → Except ε (Option α)) (output : List α)
    (index : Nat) : Except ε (List α) := do
  match ← find index with
  | none => return output
  | some item => return output ++ [item]

def collect (find : Nat → Except ε (Option α)) (count : Nat) :
    Except ε (List α) :=
  (List.range count).foldlM (collectRound find) []

/-- What is found at the indices below the bound, by the key of each item. -/
structure Collects (find : Nat → Except ε (Option α)) (key : α → Nat)
    (count : Nat) (out : List α) : Prop where
  answered : ∀ index < count, ∃ found, find index = .ok found
  ascending : out.Pairwise fun left right => key left < key right
  mem_iff : ∀ item, item ∈ out ↔
    key item < count ∧ find (key item) = .ok (some item)

variable {find : Nat → Except ε (Option α)} {key : α → Nat} {count : Nat}
  {out : List α}

theorem collectRound_eq_ok {output : List α} {index : Nat} :
    collectRound find output index = .ok out ↔
      find index = .ok none ∧ out = output ∨
        ∃ item, find index = .ok (some item) ∧ out = output ++ [item] := by
  unfold collectRound
  cases found : find index with
  | error error => simp
  | ok answer =>
      cases answer with
      | none => simp [eq_comm]
      | some item => simp [eq_comm]

theorem collect_succ :
    collect find (count + 1) =
      collect find count >>= fun output => collectRound find output count := by
  unfold collect
  rw [List.range_succ, List.foldlM_append]
  refine bind_congr fun output => ?_
  rw [List.foldlM_cons]
  exact bind_pure _

namespace Collects

theorem nodup (collects : Collects find key count out) : out.Nodup := by
  refine collects.ascending.imp ?_
  rintro left right below rfl
  exact absurd below (Nat.lt_irrefl _)

/-- Lists in the order of their keys are equal when they have the same items. -/
theorem unique (first : Collects find key count out) {other : List α}
    (second : Collects find key count other) : out = other := by
  have perm : out.Perm other := by
    rw [List.perm_ext_iff_of_nodup first.nodup second.nodup]
    intro item
    rw [first.mem_iff, second.mem_iff]
  refine perm.eq_of_pairwise ?_ first.ascending second.ascending
  intro left right _ _ below above
  exact absurd above (Nat.lt_asymm below)

theorem zero : Collects find key 0 [] where
  answered := fun index below => absurd below (Nat.not_lt_zero index)
  ascending := .nil
  mem_iff := by simp

/-- Nothing is found at the next index. -/
theorem skip (before : Collects find key count out)
    (found : find count = .ok none) : Collects find key (count + 1) out where
  answered := by
    intro index below
    obtain earlier | rfl := Nat.lt_succ_iff_lt_or_eq.mp below
    · exact before.answered index earlier
    · exact ⟨none, found⟩
  ascending := before.ascending
  mem_iff := by
    intro item
    rw [before.mem_iff]
    constructor
    · exact fun given => ⟨Nat.lt_succ_of_lt given.1, given.2⟩
    · rintro ⟨below, here⟩
      obtain earlier | last := Nat.lt_succ_iff_lt_or_eq.mp below
      · exact ⟨earlier, here⟩
      · rw [last, found] at here
        cases here

/-- Something is found at the next index. -/
theorem push (before : Collects find key count out)
    (keyed : ∀ index item, find index = .ok (some item) → key item = index)
    {item : α} (found : find count = .ok (some item)) :
    Collects find key (count + 1) (out ++ [item]) where
  answered := by
    intro index below
    obtain earlier | rfl := Nat.lt_succ_iff_lt_or_eq.mp below
    · exact before.answered index earlier
    · exact ⟨some item, found⟩
  ascending := by
    rw [List.pairwise_append]
    refine ⟨before.ascending, List.pairwise_singleton _ _, ?_⟩
    intro earlier member last same
    rw [List.mem_singleton.mp same, keyed count item found]
    exact ((before.mem_iff earlier).mp member).1
  mem_iff := by
    intro other
    rw [List.mem_append, List.mem_singleton, before.mem_iff]
    constructor
    · rintro (given | rfl)
      · exact ⟨Nat.lt_succ_of_lt given.1, given.2⟩
      · rw [keyed count other found]
        exact ⟨Nat.lt_succ_self count, found⟩
    · rintro ⟨below, here⟩
      obtain earlier | last := Nat.lt_succ_iff_lt_or_eq.mp below
      · exact .inl ⟨earlier, here⟩
      · rw [last, found] at here
        cases here
        exact .inr rfl

end Collects

/-- The loop succeeds when every index is answered, with all that was found. -/
theorem collect_eq_ok
    (keyed : ∀ index item, find index = .ok (some item) → key item = index) :
    collect find count = .ok out ↔ Collects find key count out := by
  have sound (count : Nat) (out : List α)
      (done : collect find count = .ok out) : Collects find key count out := by
    induction count generalizing out with
    | zero =>
        cases done
        exact .zero
    | succ count induction =>
        rw [collect_succ, bind_eq_ok] at done
        obtain ⟨output, earlier, round⟩ := done
        have before := induction output earlier
        obtain ⟨found, rfl⟩ | ⟨item, found, rfl⟩ := collectRound_eq_ok.mp round
        · exact before.skip found
        · exact before.push keyed found
  have total (count : Nat)
      (answered : ∀ index < count, ∃ found, find index = .ok found) :
      ∃ out, collect find count = .ok out := by
    induction count with
    | zero => exact ⟨[], rfl⟩
    | succ count induction =>
        obtain ⟨output, earlier⟩ := induction fun index below =>
          answered index (Nat.lt_succ_of_lt below)
        obtain ⟨found, here⟩ := answered count (Nat.lt_succ_self count)
        rw [collect_succ, earlier, ok_bind]
        cases found with
        | none => exact ⟨_, collectRound_eq_ok.mpr (.inl ⟨here, rfl⟩)⟩
        | some item =>
            exact ⟨_, collectRound_eq_ok.mpr (.inr ⟨item, here, rfl⟩)⟩
  constructor
  · exact sound count out
  · intro collects
    obtain ⟨other, done⟩ := total count collects.answered
    rw [done, collects.unique (sound count other done)]

end Collect

end LibVmi.Data
