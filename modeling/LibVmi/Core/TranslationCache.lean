import LibVmi.Arch.Translation
import Mathlib.Data.List.AList

namespace LibVmi.Core

open Arch

/-- Translator tag, root and 4 KiB page. -/
abbrev CacheKey := UInt64 × UInt64 × UInt64

structure TranslationCache where
  capacity : Nat
  entries : AList fun _ : CacheKey => Translation
  order : List CacheKey

namespace TranslationCache

def new (capacity : Nat) : Result TranslationCache := do
  Data.rejectIf (capacity = 0)
    (.backend "translation cache capacity must be non-zero")
  let _allocation ← Data.okOr (Data.Usize.checkedAdd capacity 1)
    (.backend "translation cache capacity overflow")
  return ⟨capacity, ∅, []⟩

def get (cache : TranslationCache) (key : CacheKey) : Option Translation :=
  cache.entries.lookup key

def insert (cache : TranslationCache) (key : CacheKey) (value : Translation) :
    TranslationCache :=
  if (cache.entries.lookup key).isSome then
    { cache with entries := cache.entries.insert key value }
  else
    let entries := cache.entries.insert key value
    let order := cache.order ++ [key]
    if entries.entries.length > cache.capacity then
      match order with
      | [] => { cache with entries, order }
      | oldest :: rest =>
          { cache with entries := entries.erase oldest, order := rest }
    else
      { cache with entries, order }

def clear (cache : TranslationCache) : TranslationCache :=
  { cache with entries := ∅, order := [] }

@[simp] theorem get_clear (cache : TranslationCache) (key : CacheKey) :
    cache.clear.get key = none :=
  AList.lookup_empty key

theorem get_new {capacity : Nat} {cache : TranslationCache}
    (created : new capacity = .ok cache) (key : CacheKey) :
    cache.get key = none := by
  unfold new at created
  obtain ⟨_, _, created⟩ := Data.bind_eq_ok.mp created
  obtain ⟨_, _, created⟩ := Data.bind_eq_ok.mp created
  rw [← Except.ok.inj created]
  exact AList.lookup_empty key

private theorem lookup_insert_some {entries : AList fun _ : CacheKey => Translation}
    {key other : CacheKey} {value found : Translation}
    (looked : (entries.insert key value).lookup other = some found) :
    (other = key ∧ found = value) ∨ entries.lookup other = some found := by
  by_cases same : other = key
  · subst other
    rw [AList.lookup_insert] at looked
    exact .inl ⟨rfl, (Option.some.inj looked).symm⟩
  · rw [AList.lookup_insert_ne same] at looked
    exact .inr looked

private theorem lookup_erase_some {entries : AList fun _ : CacheKey => Translation}
    {key other : CacheKey} {found : Translation}
    (looked : (entries.erase key).lookup other = some found) :
    entries.lookup other = some found := by
  by_cases same : other = key
  · subst other
    rw [AList.lookup_erase] at looked
    contradiction
  · rwa [AList.lookup_erase_ne same] at looked

/-- What an insertion, with or without an eviction, leaves to be found. -/
theorem get_insert_some {cache : TranslationCache} {key other : CacheKey}
    {value found : Translation}
    (looked : (cache.insert key value).get other = some found) :
    (other = key ∧ found = value) ∨ cache.get other = some found := by
  unfold insert get at looked
  split at looked
  · exact lookup_insert_some looked
  · simp only at looked
    split at looked
    · split at looked
      · exact lookup_insert_some looked
      · exact lookup_insert_some (lookup_erase_some looked)
    · exact lookup_insert_some looked

end TranslationCache

end LibVmi.Core
