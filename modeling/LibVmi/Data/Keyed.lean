import Mathlib.Data.List.Nodup

namespace LibVmi.Data

/-! Records of a list under their keys, where a key may come up again. -/

section Keyed

variable {α κ : Type} [DecidableEq κ] (key : α → κ)

/-- The first record under each key, in the order of the list. -/
def firstsBy : List α → List α
  | [] => []
  | record :: rest =>
      record :: (firstsBy rest).filter fun later => key later ≠ key record

theorem length_firstsBy_le (records : List α) :
    (firstsBy key records).length ≤ records.length := by
  induction records with
  | nil => exact Nat.le_refl 0
  | cons head rest induction =>
      rw [firstsBy, List.length_cons, List.length_cons]
      exact Nat.succ_le_succ
        (Nat.le_trans (List.length_filter_le _ _) induction)

theorem firstsBy_eq_nil {records : List α} :
    firstsBy key records = [] ↔ records = [] := by
  cases records <;> simp [firstsBy]

theorem mem_map_firstsBy {name : κ} {records : List α} :
    name ∈ (firstsBy key records).map key ↔ name ∈ records.map key := by
  induction records with
  | nil => exact Iff.rfl
  | cons head rest induction =>
      simp only [firstsBy, List.map_cons, List.mem_cons, List.mem_map,
        List.mem_filter, decide_eq_true_eq] at induction ⊢
      constructor
      · intro found
        obtain same | ⟨later, ⟨member, _⟩, same⟩ := found
        · exact .inl same
        · exact .inr (induction.mp ⟨later, member, same⟩)
      · intro found
        by_cases same : name = key head
        · exact .inl same
        · obtain ⟨later, member, named⟩ :=
            induction.mpr (found.resolve_left same)
          exact .inr ⟨later, ⟨member, by rw [named]; exact same⟩, named⟩

theorem nodup_map_firstsBy (records : List α) :
    ((firstsBy key records).map key).Nodup := by
  induction records with
  | nil => exact List.nodup_nil
  | cons head rest induction =>
      rw [firstsBy, List.map_cons, List.nodup_cons]
      constructor
      · intro again
        obtain ⟨later, member, same⟩ := List.mem_map.mp again
        exact of_decide_eq_true (List.mem_filter.mp member).2 same
      · exact induction.sublist (List.filter_sublist.map key)

/-- One more record is kept exactly where its key is new. -/
theorem firstsBy_concat (records : List α) (record : α) :
    firstsBy key (records ++ [record]) =
      if key record ∈ records.map key then firstsBy key records
      else firstsBy key records ++ [record] := by
  induction records with
  | nil => rfl
  | cons head rest induction =>
      rw [List.cons_append, firstsBy, induction]
      by_cases same : key record = key head
      · have known : key record ∈ (head :: rest).map key :=
          List.mem_cons.mpr (.inl same)
        rw [if_pos known]
        split
        · rfl
        · simp [firstsBy, same]
      · by_cases known : key record ∈ rest.map key
        · have again : key record ∈ (head :: rest).map key :=
            List.mem_cons_of_mem _ known
          rw [if_pos known, if_pos again, firstsBy]
        · have unknown : key record ∉ (head :: rest).map key := by
            rw [List.map_cons, List.mem_cons, not_or]
            exact ⟨same, known⟩
          rw [if_neg known, if_neg unknown, firstsBy, List.filter_append]
          simp [same]

theorem firstsBy_eq_self {records : List α}
    (distinct : (records.map key).Nodup) : firstsBy key records = records := by
  induction records with
  | nil => rfl
  | cons head rest induction =>
      rw [List.map_cons, List.nodup_cons] at distinct
      rw [firstsBy, induction distinct.2]
      congr 1
      rw [List.filter_eq_self]
      intro later member
      apply decide_eq_true
      intro same
      exact distinct.1 (List.mem_map.mpr ⟨later, member, same⟩)

/-- Among distinct keys, what a search finds is what bears the key. -/
theorem find?_key_eq_some {records : List α}
    (distinct : (records.map key).Nodup) {name : κ} {record : α} :
    records.find? (key · = name) = some record ↔
      record ∈ records ∧ key record = name := by
  constructor
  · intro found
    have same := List.find?_some found
    exact ⟨List.mem_of_find?_eq_some found, of_decide_eq_true same⟩
  · intro given
    obtain ⟨member, rfl⟩ := given
    cases found : records.find? (key · = key record) with
    | none =>
        exact absurd (decide_eq_true rfl)
          (List.find?_eq_none.mp found record member)
    | some other =>
        have same := List.find?_some found
        have held := List.mem_of_find?_eq_some found
        rw [List.inj_on_of_nodup_map distinct held member
          (of_decide_eq_true same)]

end Keyed

end LibVmi.Data
