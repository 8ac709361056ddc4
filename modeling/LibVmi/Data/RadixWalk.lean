import LibVmi.Data.Checked

namespace LibVmi.Data.RadixWalk

/-! A radix tree searched from its most significant digit. The search stops at
the first level whose entry is a leaf, and what it finds depends only on the
address bits from that level up. -/

inductive Decision (table frame fault : Type) where
  | fail (error : fault)
  | descend (next : table)
  | leaf (found : frame)

structure Level (entry table frame fault : Type) where
  shift : Nat
  decide : entry → Decision table frame fault

structure Leaf (frame : Type) where
  found : frame
  shift : Nat

variable {entry table frame fault : Type}

def resolve (fetch : table → Nat → Except fault entry) (size : Nat)
    (exhausted : fault) (address : Nat) :
    List (Level entry table frame fault) → table → Except fault (Leaf frame)
  | [], _ => .error exhausted
  | level :: rest, current => do
      let found ← fetch current (address / 2 ^ level.shift % size)
      match level.decide found with
      | .fail error => .error error
      | .descend next => resolve fetch size exhausted address rest next
      | .leaf frame => .ok ⟨frame, level.shift⟩

/-- The tables that a search looks into, each with the digit it uses there. -/
def visits (fetch : table → Nat → Except fault entry) (size address : Nat) :
    List (Level entry table frame fault) → table → List (table × Nat)
  | [], _ => []
  | level :: rest, current =>
      (current, address / 2 ^ level.shift % size) ::
        match fetch current (address / 2 ^ level.shift % size) with
        | .error _ => []
        | .ok found =>
            match level.decide found with
            | .descend next => visits fetch size address rest next
            | .fail _ => []
            | .leaf _ => []

section Congruence

variable {fetch : table → Nat → Except fault entry} {size : Nat}
  {exhausted : fault}

theorem div_two_pow_eq_of_le {left right low high : Nat} (ordered : low ≤ high)
    (equal : left / 2 ^ low = right / 2 ^ low) :
    left / 2 ^ high = right / 2 ^ high := by
  obtain ⟨distance, rfl⟩ := Nat.exists_eq_add_of_le ordered
  rw [Nat.pow_add, ← Nat.div_div_eq_div_mul, ← Nat.div_div_eq_div_mul, equal]

/-- Addresses with the same digits give the same search. -/
theorem resolve_digits {levels : List (Level entry table frame fault)}
    {left right : Nat} (current : table)
    (digits : ∀ level ∈ levels,
      left / 2 ^ level.shift % size = right / 2 ^ level.shift % size) :
    resolve fetch size exhausted left levels current =
        resolve fetch size exhausted right levels current ∧
      visits fetch size left levels current =
        visits fetch size right levels current := by
  induction levels generalizing current with
  | nil => exact ⟨rfl, rfl⟩
  | cons level rest induction =>
      simp only [List.mem_cons, forall_eq_or_imp] at digits
      simp only [resolve, visits]
      rw [digits.1]
      cases fetch current (right / 2 ^ level.shift % size) with
      | error error => exact ⟨rfl, rfl⟩
      | ok found =>
          simp only [ok_bind]
          cases level.decide found with
          | fail error => exact ⟨rfl, rfl⟩
          | descend next =>
              obtain ⟨found, visited⟩ := induction next digits.2
              exact ⟨found, congrArg (List.cons _) visited⟩
          | leaf frame => exact ⟨rfl, rfl⟩

/-- Addresses that agree above every index give the same search. -/
theorem resolve_congr {levels : List (Level entry table frame fault)}
    {left right low : Nat} (current : table)
    (above : ∀ level ∈ levels, low ≤ level.shift)
    (equal : left / 2 ^ low = right / 2 ^ low) :
    resolve fetch size exhausted left levels current =
      resolve fetch size exhausted right levels current := by
  have digits : ∀ level ∈ levels,
      left / 2 ^ level.shift % size = right / 2 ^ level.shift % size := by
    intro level inLevels
    rw [div_two_pow_eq_of_le (above level inLevels) equal]
  exact (resolve_digits current digits).1

/-- A leaf is found again from every address of the range it maps. -/
theorem resolve_leaf_congr {levels : List (Level entry table frame fault)}
    {left right : Nat} {current : table} {leaf : Leaf frame}
    (descending : levels.Pairwise fun upper lower => lower.shift ≤ upper.shift)
    (resolved : resolve fetch size exhausted left levels current = .ok leaf)
    (equal : left / 2 ^ leaf.shift = right / 2 ^ leaf.shift) :
    (∃ level ∈ levels, leaf.shift = level.shift) ∧
      resolve fetch size exhausted right levels current = .ok leaf := by
  induction levels generalizing current with
  | nil => simp [resolve] at resolved
  | cons level rest induction =>
      rw [List.pairwise_cons] at descending
      simp only [resolve] at resolved ⊢
      obtain ⟨found, fetched, decided⟩ := bind_eq_ok.mp resolved
      cases decision : level.decide found with
      | fail error => simp [decision] at decided
      | descend next =>
          simp only [decision] at decided
          obtain ⟨⟨lower, inRest, shiftEq⟩, again⟩ :=
            induction descending.2 decided
          have ordered : leaf.shift ≤ level.shift := by
            rw [shiftEq]
            exact descending.1 lower inRest
          refine ⟨⟨lower, List.mem_cons_of_mem level inRest, shiftEq⟩, ?_⟩
          rw [← div_two_pow_eq_of_le ordered equal, fetched]
          simp only [ok_bind, decision]
          exact again
      | leaf frame =>
          simp only [decision, Except.ok.injEq] at decided
          subst leaf
          refine ⟨⟨level, by simp, rfl⟩, ?_⟩
          rw [← equal, fetched]
          simp only [ok_bind, decision]

/-- A leaf carries whatever property every level gives its own leaves. -/
theorem resolve_leaf_property (property : frame → Nat → Prop)
    {levels : List (Level entry table frame fault)} {address : Nat}
    {current : table} {leaf : Leaf frame}
    (each : ∀ level ∈ levels, ∀ found frame,
      level.decide found = .leaf frame → property frame level.shift)
    (resolved : resolve fetch size exhausted address levels current =
      .ok leaf) :
    property leaf.found leaf.shift := by
  induction levels generalizing current with
  | nil => simp [resolve] at resolved
  | cons level rest induction =>
      simp only [List.mem_cons, forall_eq_or_imp] at each
      simp only [resolve] at resolved
      obtain ⟨found, _, decided⟩ := bind_eq_ok.mp resolved
      cases decision : level.decide found with
      | fail error => simp [decision] at decided
      | descend next =>
          simp only [decision] at decided
          exact induction each.2 decided
      | leaf frame =>
          simp only [decision, Except.ok.injEq] at decided
          subst leaf
          exact each.1 found frame decision

/-- A failure has whatever property the memory and every level give their
own. -/
theorem resolve_error_property (property : fault → Prop)
    {levels : List (Level entry table frame fault)} {address : Nat}
    {current : table} {error : fault}
    (fetched : ∀ current index error,
      fetch current index = .error error → property error)
    (each : ∀ level ∈ levels, ∀ found error,
      level.decide found = .fail error → property error)
    (ends : property exhausted)
    (failed : resolve fetch size exhausted address levels current =
      .error error) :
    property error := by
  induction levels generalizing current with
  | nil =>
      cases failed
      exact ends
  | cons level rest induction =>
      simp only [List.mem_cons, forall_eq_or_imp] at each
      simp only [resolve] at failed
      rcases bind_eq_error.mp failed with unread | ⟨found, _, decided⟩
      · exact fetched _ _ _ unread
      · cases decision : level.decide found with
        | fail other =>
            simp only [decision, Except.error.injEq] at decided
            subst other
            exact each.1 found error decision
        | descend next =>
            simp only [decision] at decided
            exact induction each.2 decided
        | leaf frame => simp [decision] at decided

/-- A search finds the same wherever the slots that it visits are the same. -/
theorem resolve_fetch_congr {other : table → Nat → Except fault entry}
    {levels : List (Level entry table frame fault)} {address : Nat}
    {current : table} {leaf : Leaf frame}
    (same : ∀ visit ∈ visits fetch size address levels current, ∀ found,
      fetch visit.1 visit.2 = .ok found ↔ other visit.1 visit.2 = .ok found) :
    resolve fetch size exhausted address levels current = .ok leaf ↔
      resolve other size exhausted address levels current = .ok leaf := by
  induction levels generalizing current with
  | nil => exact Iff.rfl
  | cons level rest induction =>
      rw [visits, List.forall_mem_cons] at same
      obtain ⟨head, tail⟩ := same
      simp only at head
      rw [resolve, resolve]
      cases fetched : fetch current (address / 2 ^ level.shift % size) with
      | error error =>
          cases again : other current (address / 2 ^ level.shift % size) with
          | error error => simp
          | ok found =>
              rw [(head found).mpr again] at fetched
              contradiction
      | ok found =>
          rw [(head found).mp fetched, ok_bind, ok_bind]
          rw [fetched] at tail
          simp only at tail
          cases decision : level.decide found with
          | fail error => exact Iff.rfl
          | leaf frame => exact Iff.rfl
          | descend next =>
              rw [decision] at tail
              exact induction tail

end Congruence

end LibVmi.Data.RadixWalk
