import LibVmi.Core.TranslationCache
import LibVmi.Data.Histories

namespace LibVmi.Core

open Arch Data

/-! The translation cache over any sequence of calls. -/

inductive CacheCall where
  | get (key : CacheKey)
  | insert (key : CacheKey) (value : Translation)
  | clear

namespace TranslationCache

def apply (cache : TranslationCache) : CacheCall → TranslationCache
  | .get _ => cache
  | .insert key value => cache.insert key value
  | .clear => cache.clear

def run (cache : TranslationCache) (calls : List CacheCall) :
    TranslationCache :=
  reached apply cache calls

/-- The key that an insertion takes off the queue. -/
def evicted (cache : TranslationCache) (key : CacheKey)
    (value : Translation) : Option CacheKey :=
  if (cache.entries.lookup key).isSome then
    none
  else if (cache.entries.insert key value).entries.length > cache.capacity then
    (cache.order ++ [key]).head?
  else
    none

/-- What makes the value of a key another one or none. -/
inductive Spoils (key : CacheKey) (cache : TranslationCache) :
    CacheCall → Prop
  | replaced (value : Translation) : Spoils key cache (.insert key value)
  | evicted {other : CacheKey} {value : Translation}
      (popped : cache.evicted other value = some key) :
      Spoils key cache (.insert other value)
  | cleared : Spoils key cache .clear

def Resident (cache : TranslationCache) (key : CacheKey) : Prop :=
  (cache.get key).isSome

/-- The queue holds the keys of the map, each once. -/
structure Queued (cache : TranslationCache) : Prop where
  positive : 0 < cache.capacity
  nodup : cache.order.Nodup
  keys : cache.order.Perm cache.entries.keys
  bounded : cache.order.length ≤ cache.capacity

theorem queued_new {capacity : Nat} {cache : TranslationCache}
    (created : new capacity = .ok cache) :
    cache.capacity = capacity ∧ cache.Queued := by
  unfold new at created
  obtain ⟨_, positive, created⟩ := bind_eq_ok.mp created
  obtain ⟨_, _, created⟩ := bind_eq_ok.mp created
  rw [← Except.ok.inj created]
  exact ⟨rfl, Nat.pos_of_ne_zero (rejectIf_eq_ok.mp positive), .nil, .nil,
    Nat.zero_le _⟩

theorem Queued.mem_order {cache : TranslationCache} (queued : cache.Queued)
    {key : CacheKey} :
    key ∈ cache.order ↔ cache.Resident key := by
  rw [queued.keys.mem_iff, Resident, get, AList.lookup_isSome, AList.mem_keys]

/-- What an insertion does. -/
inductive Inserted (cache : TranslationCache) (key : CacheKey)
    (value : Translation) : Prop
  | replaced (present : key ∈ cache.order)
      (evicts : cache.evicted key value = none)
      (inserted : cache.insert key value =
        { cache with entries := cache.entries.insert key value })
  | added (absent : key ∉ cache.order)
      (room : cache.order.length < cache.capacity)
      (evicts : cache.evicted key value = none)
      (inserted : cache.insert key value =
        { cache with
          entries := cache.entries.insert key value
          order := cache.order ++ [key] })
  | rotated {oldest : CacheKey} {rest : List CacheKey}
      (absent : key ∉ cache.order)
      (full : cache.order.length = cache.capacity)
      (front : cache.order = oldest :: rest)
      (evicts : cache.evicted key value = some oldest)
      (inserted : cache.insert key value =
        { cache with
          entries := (cache.entries.insert key value).erase oldest
          order := rest ++ [key] })

theorem inserted {cache : TranslationCache} (queued : cache.Queued)
    (key : CacheKey) (value : Translation) : cache.Inserted key value := by
  by_cases present : key ∈ cache.order
  · have found : (cache.entries.lookup key).isSome :=
      queued.mem_order.mp present
    exact .replaced present (if_pos found) (if_pos found)
  · have missed : ¬ (cache.entries.lookup key).isSome :=
      fun found => present (queued.mem_order.mpr found)
    have fresh : key ∉ cache.entries := fun member =>
      missed (AList.lookup_isSome.mpr member)
    have length : (cache.entries.insert key value).entries.length =
        cache.order.length + 1 := by
      rw [AList.entries_insert_of_notMem fresh, List.length_cons,
        queued.keys.length_eq]
      exact congrArg Nat.succ (List.length_map ..).symm
    by_cases room : cache.order.length < cache.capacity
    · refine .added present room ?_ ?_
      · rw [evicted, if_neg missed, length, if_neg (by omega)]
      · rw [insert, if_neg missed]
        simp only [length]
        rw [if_neg (by omega)]
    · have positive := queued.positive
      have bounded := queued.bounded
      cases front : cache.order with
      | nil =>
          rw [front] at room
          simp at room
          omega
      | cons oldest rest =>
          refine .rotated present (by omega) front ?_ ?_
          · rw [evicted, if_neg missed, length, if_pos (by omega), front]
            rfl
          · rw [insert, if_neg missed]
            simp only [length]
            rw [if_pos (by omega), front]
            rfl

theorem Queued.of_mem {cache : TranslationCache}
    (positive : 0 < cache.capacity) (nodup : cache.order.Nodup)
    (keys : ∀ key, key ∈ cache.order ↔ key ∈ cache.entries)
    (bounded : cache.order.length ≤ cache.capacity) : cache.Queued :=
  ⟨positive, nodup,
    (List.perm_ext_iff_of_nodup nodup cache.entries.keys_nodup).mpr keys,
    bounded⟩

theorem Queued.apply {cache : TranslationCache} (queued : cache.Queued)
    (call : CacheCall) :
    (cache.apply call).capacity = cache.capacity ∧
      (cache.apply call).Queued := by
  have keys (key : CacheKey) : key ∈ cache.order ↔ key ∈ cache.entries :=
    queued.keys.mem_iff
  cases call with
  | get key => exact ⟨rfl, queued⟩
  | clear => exact ⟨rfl, queued.positive, .nil, .nil, Nat.zero_le _⟩
  | insert key value =>
      rw [TranslationCache.apply]
      cases cache.inserted queued key value with
      | replaced present evicts inserted =>
          rw [inserted]
          refine ⟨rfl, .of_mem queued.positive queued.nodup ?_ queued.bounded⟩
          intro other
          rw [AList.mem_insert, ← keys]
          constructor
          · exact .inr
          · rintro (rfl | member)
            · exact present
            · exact member
      | added absent room evicts inserted =>
          rw [inserted]
          refine ⟨rfl, .of_mem queued.positive ?_ ?_ ?_⟩
          · rw [← List.concat_eq_append]
            exact queued.nodup.concat absent
          · intro other
            rw [AList.mem_insert, ← keys, List.mem_append, List.mem_singleton,
              or_comm]
          · rw [List.length_append, List.length_singleton]
            exact room
      | @rotated oldest rest absent full front evicts inserted =>
          rw [inserted]
          have nodup := queued.nodup
          have bounded := queued.bounded
          rw [front] at absent nodup bounded keys
          rw [List.mem_cons, not_or] at absent
          rw [List.nodup_cons] at nodup
          refine ⟨rfl, .of_mem queued.positive ?_ ?_ ?_⟩
          · rw [← List.concat_eq_append]
            exact nodup.2.concat absent.2
          · intro other
            rw [AList.mem_erase, AList.mem_insert, ← keys, List.mem_append,
              List.mem_singleton, List.mem_cons]
            grind
          · rw [List.length_append, List.length_singleton]
            exact bounded

theorem run_queued {capacity : Nat} {cache : TranslationCache}
    (created : new capacity = .ok cache) (calls : List CacheCall) :
    (cache.run calls).capacity = capacity ∧ (cache.run calls).Queued := by
  induction calls using List.reverseRecOn with
  | nil => exact queued_new created
  | append_singleton calls call induction =>
      rw [run, reached_snoc]
      have next := induction.2.apply call
      exact ⟨next.1.trans induction.1, next.2⟩

/-- What is found after an insertion. -/
theorem get_insert {cache : TranslationCache} (queued : cache.Queued)
    (key : CacheKey) (value : Translation) (other : CacheKey) :
    (cache.insert key value).get other =
      if other = key then some value
      else if cache.evicted key value = some other then none
      else cache.get other := by
  have plain : (cache.entries.insert key value).lookup other =
      if other = key then some value else cache.get other := by
    split
    · rename_i same
      rw [same, AList.lookup_insert]
    · rename_i different
      rw [AList.lookup_insert_ne different]
      rfl
  cases cache.inserted queued key value with
  | replaced present evicts inserted =>
      rw [inserted, get, plain, evicts]
      rfl
  | added absent room evicts inserted =>
      rw [inserted, get, plain, evicts]
      rfl
  | @rotated oldest rest absent full front evicts inserted =>
      rw [inserted, get, evicts]
      rw [front, List.mem_cons, not_or] at absent
      by_cases dropped : other = oldest
      · rw [dropped, AList.lookup_erase, if_neg (Ne.symm absent.1), if_pos rfl]
      · rw [AList.lookup_erase_ne dropped, plain,
          if_neg (fun same => dropped (Option.some.inj same).symm)]

/-- One call, as a key sees it. -/
theorem get_apply {cache : TranslationCache} (queued : cache.Queued)
    (call : CacheCall) (key : CacheKey) (value : Translation) :
    (cache.apply call).get key = some value ↔
      call = .insert key value ∨
        cache.get key = some value ∧ ¬ Spoils key cache call := by
  cases call with
  | get other =>
      have kept : ¬ Spoils key cache (.get other) := by
        intro spoiled
        cases spoiled
      simp [apply, kept]
  | clear =>
      have spoiled : Spoils key cache .clear := .cleared
      simp [apply, spoiled]
  | insert other newer =>
      rw [apply, get_insert queued]
      by_cases same : key = other
      · subst other
        have spoiled : Spoils key cache (.insert key newer) := .replaced newer
        simp [spoiled]
      · rw [if_neg same]
        have spoils : Spoils key cache (.insert other newer) ↔
            cache.evicted other newer = some key := by
          constructor
          · intro spoiled
            cases spoiled with
            | replaced value => exact absurd rfl same
            | evicted popped => exact popped
          · exact .evicted
        rw [spoils]
        split
        · rename_i popped
          simp [popped, Ne.symm same]
        · rename_i kept
          simp [kept, Ne.symm same]

/-- Keys enter the queue behind those that are resident longer. -/
theorem order_pairwise {capacity : Nat} {cache : TranslationCache}
    (created : new capacity = .ok cache) (calls : List CacheCall) :
    (cache.run calls).order.Pairwise
      (LongerPresent apply cache Resident calls) := by
  induction calls using List.reverseRecOn with
  | nil =>
      unfold new at created
      obtain ⟨_, _, created⟩ := bind_eq_ok.mp created
      obtain ⟨_, _, created⟩ := bind_eq_ok.mp created
      rw [← Except.ok.inj created]
      exact .nil
  | append_singleton calls call induction =>
      have queued := (run_queued created calls).2
      have next := (run_queued created (calls ++ [call])).2
      have after : cache.run (calls ++ [call]) =
          (cache.run calls).apply call := reached_snoc apply cache calls call
      have were : ∀ key ∈ (cache.run calls).order,
          (cache.run calls).Resident key :=
        fun key member => queued.mem_order.mp member
      -- Those that are still in the queue have stayed.
      have stay : ∀ kept : List CacheKey,
          kept ⊆ (cache.run (calls ++ [call])).order → ∀ key ∈ kept,
          Resident (reached apply cache (calls ++ [call])) key :=
        fun kept remain key member => next.mem_order.mp (remain member)
      cases call with
      | get key =>
          rw [after] at stay ⊢
          exact LongerPresent.pairwise_snoc induction (.refl _)
            (stay _ (List.Subset.refl _))
      | clear =>
          rw [after]
          exact .nil
      | insert key value =>
          rw [apply] at after
          cases (cache.run calls).inserted queued key value with
          | replaced present evicts inserted =>
              rw [after, inserted] at stay ⊢
              exact LongerPresent.pairwise_snoc induction (.refl _)
                (stay _ (List.Subset.refl _))
          | added absent room evicts inserted =>
              rw [after, inserted] at stay ⊢
              rw [queued.mem_order] at absent
              exact LongerPresent.pairwise_enter induction were absent
                (.refl _) (stay _ (List.subset_append_left _ _))
          | @rotated oldest rest absent full front evicts inserted =>
              rw [after, inserted] at stay ⊢
              rw [queued.mem_order] at absent
              rw [front] at induction were
              exact LongerPresent.pairwise_enter induction were absent
                (List.sublist_cons_self _ _)
                (stay _ (List.subset_append_left _ _))

/-- The cache is a map of a bounded number of keys that leave it in the order
they came. -/
theorem cache_history {capacity : Nat} {cache : TranslationCache}
    (created : new capacity = .ok cache) (calls : List CacheCall) :
    let state := cache.run calls
    (state.order.Nodup ∧ state.order.Perm state.entries.keys ∧
      state.order.length ≤ capacity) ∧
    (∀ key value, state.get key = some value ↔
      ∃ past later, calls = past ++ .insert key value :: later ∧
        ∀ before next after, later = before ++ next :: after →
          ¬ Spoils key (cache.run (past ++ .insert key value :: before))
            next) ∧
    (∀ key value, ¬ state.Resident key → state.order.length = capacity →
      ∃ oldest, oldest ∈ state.order ∧
        state.evicted key value = some oldest ∧
        (∀ other ∈ state.order, other ≠ oldest →
          LongerPresent apply cache Resident calls oldest other) ∧
        ∀ other, (state.insert key value).get other =
          if other = key then some value
          else if other = oldest then none
          else state.get other) ∧
    (∀ key value, state.Resident key →
      (state.insert key value).order = state.order ∧
        ∀ other, (state.insert key value).get other =
          if other = key then some value else state.get other) ∧
    ∀ key, cache.run (calls ++ [.get key]) = state := by
  intro state
  obtain ⟨capacityEq, queued⟩ := run_queued created calls
  change state.capacity = capacity at capacityEq
  refine ⟨⟨queued.nodup, queued.keys, capacityEq ▸ queued.bounded⟩, ?_, ?_, ?_,
    fun key => reached_snoc apply cache calls (.get key)⟩
  · intro key value
    have found := observed_iff apply cache (fun cache => cache.get key)
      (fun call value => call = .insert key value) (Spoils key)
      (get_new created key)
      (fun calls call =>
        get_apply (run_queued created calls).2 call key) calls value
    refine found.trans ?_
    constructor
    · rintro ⟨past, _, later, splits, rfl, kept⟩
      exact ⟨past, later, splits, kept⟩
    · rintro ⟨past, later, splits, kept⟩
      exact ⟨past, _, later, splits, rfl, kept⟩
  · intro key value absent full
    have missing : key ∉ state.order :=
      fun member => absent (queued.mem_order.mp member)
    cases state.inserted queued key value with
    | replaced present evicts inserted => exact absurd present missing
    | added _ room evicts inserted => omega
    | @rotated oldest rest _ _ front evicts inserted =>
        have order := order_pairwise created calls
        refine ⟨oldest, ?_, evicts, ?_, ?_⟩
        · rw [front]
          exact List.mem_cons_self
        · intro other member different
          change state.order.Pairwise _ at order
          rw [front, List.pairwise_cons] at order
          rw [front, List.mem_cons] at member
          exact order.1 other (member.resolve_left different)
        · intro other
          rw [get_insert queued, evicts]
          simp only [Option.some.injEq, eq_comm (a := oldest)]
          rfl
  · intro key value present
    cases state.inserted queued key value with
    | replaced _ evicts inserted =>
        refine ⟨by rw [inserted], ?_⟩
        intro other
        rw [get_insert queued, evicts]
        rfl
    | added absent | rotated absent =>
        exact absurd (queued.mem_order.mpr present) absent

theorem cache_history_full :
    let state := (⟨1, ∅, []⟩ : TranslationCache).run
      [.insert (0, 0, 1) ⟨⟨0x1000⟩, 4096⟩, .insert (0, 0, 2) ⟨⟨0x2000⟩, 4096⟩]
    new 1 = .ok ⟨1, ∅, []⟩ ∧ state.order.length ≤ 1 :=
  ⟨rfl, (cache_history rfl _).1.2.2⟩

end TranslationCache

end LibVmi.Core
