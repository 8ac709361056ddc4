import Mathlib.Data.List.Pairwise
import Mathlib.Order.Lattice

namespace LibVmi.Data

/-! Maps that list their entries in the order of the keys. -/

structure SortedMap (κ ν : Type) [LinearOrder κ] where
  entries : List (κ × ν)
  sorted : entries.Pairwise fun left right => left.1 < right.1

namespace SortedMap

variable {κ ν : Type} [LinearOrder κ]

def empty : SortedMap κ ν :=
  ⟨[], .nil⟩

def get (map : SortedMap κ ν) (key : κ) : Option ν :=
  map.entries.lookup key

def insertEntry (key : κ) (value : ν) : List (κ × ν) → List (κ × ν)
  | [] => [(key, value)]
  | entry :: rest =>
      if key < entry.1 then (key, value) :: entry :: rest
      else if key = entry.1 then (key, value) :: rest
      else entry :: insertEntry key value rest

theorem mem_insertEntry {key : κ} {value : ν} {entries : List (κ × ν)}
    {entry : κ × ν} (member : entry ∈ insertEntry key value entries) :
    entry = (key, value) ∨ entry ∈ entries := by
  induction entries with
  | nil => exact .inl (List.mem_singleton.mp member)
  | cons first rest induction =>
      rw [insertEntry] at member
      split at member
      · exact List.mem_cons.mp member
      · split at member
        · exact (List.mem_cons.mp member).imp_right (List.mem_cons_of_mem _)
        · obtain rfl | later := List.mem_cons.mp member
          · exact .inr List.mem_cons_self
          · exact (induction later).imp_right (List.mem_cons_of_mem _)

theorem sorted_insertEntry (key : κ) (value : ν) {entries : List (κ × ν)}
    (sorted : entries.Pairwise fun left right => left.1 < right.1) :
    (insertEntry key value entries).Pairwise
      fun left right => left.1 < right.1 := by
  induction sorted with
  | nil => exact List.pairwise_singleton _ _
  | @cons first rest before sorted induction =>
      rw [insertEntry]
      split
      · rename_i below
        refine .cons ?_ (.cons before sorted)
        intro entry member
        obtain rfl | later := List.mem_cons.mp member
        · exact below
        · exact lt_trans below (before entry later)
      · rename_i notBelow
        split
        · rename_i same
          exact .cons (by rw [same]; exact before) sorted
        · rename_i different
          refine .cons ?_ induction
          intro entry member
          obtain rfl | later := mem_insertEntry member
          · exact lt_of_le_of_ne (not_lt.mp notBelow) (Ne.symm different)
          · exact before entry later

def insert (map : SortedMap κ ν) (key : κ) (value : ν) : SortedMap κ ν :=
  ⟨insertEntry key value map.entries, sorted_insertEntry key value map.sorted⟩

def remove (map : SortedMap κ ν) (key : κ) : SortedMap κ ν :=
  ⟨map.entries.filter fun entry => entry.1 ≠ key, map.sorted.filter _⟩

@[simp] theorem get_empty (key : κ) : (empty : SortedMap κ ν).get key = none :=
  rfl

theorem lookup_cons_eq (key : κ) (entry : κ × ν) (rest : List (κ × ν)) :
    (entry :: rest).lookup key =
      if key = entry.1 then some entry.2 else rest.lookup key := by
  rw [List.lookup_cons]
  by_cases same : key = entry.1
  · rw [if_pos same, beq_iff_eq.mpr same]
  · rw [if_neg same, beq_eq_false_iff_ne.mpr same]

theorem get_insert (map : SortedMap κ ν) (key : κ) (value : ν) (other : κ) :
    (map.insert key value).get other =
      if other = key then some value else map.get other := by
  have entries : ∀ entries : List (κ × ν),
      (insertEntry key value entries).lookup other =
        if other = key then some value else entries.lookup other := by
    intro entries
    induction entries with
    | nil => rw [insertEntry, lookup_cons_eq]
    | cons first rest induction =>
        rw [insertEntry]
        split
        · rw [lookup_cons_eq]
        · split
          · rename_i same
            rw [lookup_cons_eq, lookup_cons_eq, ← same]
            by_cases found : other = key
            · rw [if_pos found, if_pos found]
            · rw [if_neg found, if_neg found, if_neg found]
          · rename_i different
            rw [lookup_cons_eq, lookup_cons_eq, induction]
            by_cases found : other = first.1
            · rw [if_pos found, if_pos found, if_neg]
              rw [found]
              exact Ne.symm different
            · rw [if_neg found, if_neg found]
  exact entries map.entries

theorem get_remove (map : SortedMap κ ν) (key other : κ) :
    (map.remove key).get other =
      if other = key then none else map.get other := by
  have entries : ∀ entries : List (κ × ν),
      (entries.filter fun entry => entry.1 ≠ key).lookup other =
        if other = key then none else entries.lookup other := by
    intro entries
    induction entries with
    | nil => simp
    | cons first rest induction =>
        rw [List.filter_cons]
        by_cases removed : first.1 = key
        · rw [if_neg (by simp [removed]), induction, lookup_cons_eq, removed]
          by_cases same : other = key
          · rw [if_pos same, if_pos same]
          · rw [if_neg same, if_neg same, if_neg same]
        · rw [if_pos (by simp [removed]), lookup_cons_eq, lookup_cons_eq,
            induction]
          by_cases found : other = first.1
          · rw [if_pos found, if_pos found, if_neg]
            rw [found]
            exact removed
          · rw [if_neg found, if_neg found]
  exact entries map.entries

theorem get_eq_some (map : SortedMap κ ν) (key : κ) (value : ν) :
    map.get key = some value ↔ (key, value) ∈ map.entries := by
  obtain ⟨entries, sorted⟩ := map
  change entries.lookup key = some value ↔ (key, value) ∈ entries
  induction sorted with
  | nil => simp
  | @cons first rest before _ induction =>
      rw [lookup_cons_eq, List.mem_cons]
      by_cases found : key = first.1
      · have absent : (key, value) ∉ rest := by
          intro later
          have beyond := before _ later
          rw [found] at beyond
          exact lt_irrefl _ beyond
        rw [if_pos found, Option.some.injEq, or_iff_left absent, Prod.ext_iff]
        exact ⟨fun same => ⟨found, same.symm⟩, fun same => same.2.symm⟩
      · have other : (key, value) ≠ first := fun same =>
          found (congrArg Prod.fst same)
        rw [if_neg found, induction, or_iff_right other]

end SortedMap

end LibVmi.Data
