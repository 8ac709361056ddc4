import Mathlib.Algebra.Order.Ring.Nat

namespace LibVmi.Data

/-! Unsigned machine integers read through their numeric value, and the
arithmetic that reports overflow instead of wrapping. -/

class Unsigned (α : Type) where
  bits : Nat
  toNat : α → Nat
  ofNat : Nat → α
  toNat_lt : ∀ value, toNat value < 2 ^ bits
  toNat_ofNat : ∀ value, value < 2 ^ bits → toNat (ofNat value) = value
  eq_of_toNat_eq : ∀ left right, toNat left = toNat right → left = right

instance : Unsigned UInt8 where
  bits := 8
  toNat := UInt8.toNat
  ofNat := UInt8.ofNat
  toNat_lt := UInt8.toNat_lt
  toNat_ofNat := fun _ bound => UInt8.toNat_ofNat_of_lt' bound
  eq_of_toNat_eq := fun _ _ equal => UInt8.toNat_inj.mp equal

instance : Unsigned UInt32 where
  bits := 32
  toNat := UInt32.toNat
  ofNat := UInt32.ofNat
  toNat_lt := UInt32.toNat_lt
  toNat_ofNat := fun _ bound => UInt32.toNat_ofNat_of_lt' bound
  eq_of_toNat_eq := fun _ _ equal => UInt32.toNat_inj.mp equal

instance : Unsigned UInt64 where
  bits := 64
  toNat := UInt64.toNat
  ofNat := UInt64.ofNat
  toNat_lt := UInt64.toNat_lt
  toNat_ofNat := fun _ bound => UInt64.toNat_ofNat_of_lt' bound
  eq_of_toNat_eq := fun _ _ equal => UInt64.toNat_inj.mp equal

@[simp] theorem unsigned_toNat_uint8 (value : UInt8) :
    Unsigned.toNat value = value.toNat := rfl

@[simp] theorem unsigned_toNat_uint32 (value : UInt32) :
    Unsigned.toNat value = value.toNat := rfl

@[simp] theorem unsigned_toNat_uint64 (value : UInt64) :
    Unsigned.toNat value = value.toNat := rfl

section Checked

variable {α : Type} [Unsigned α]

def tryFrom (value : Nat) : Option α :=
  if value < 2 ^ Unsigned.bits α then some (Unsigned.ofNat value) else none

def checkedAdd (left right : α) : Option α :=
  tryFrom (Unsigned.toNat left + Unsigned.toNat right)

def checkedMul (left right : α) : Option α :=
  tryFrom (Unsigned.toNat left * Unsigned.toNat right)

def checkedSub (left right : α) : Option α :=
  if Unsigned.toNat right ≤ Unsigned.toNat left then
    some (Unsigned.ofNat (Unsigned.toNat left - Unsigned.toNat right))
  else
    none

theorem tryFrom_eq_some {value : Nat} {result : α} :
    tryFrom value = some result ↔ Unsigned.toNat result = value := by
  unfold tryFrom
  constructor
  · intro converted
    split at converted
    · rename_i bound
      rw [← Option.some.inj converted]
      exact Unsigned.toNat_ofNat value bound
    · contradiction
  · intro equal
    subst equal
    have bound := Unsigned.toNat_lt result
    rw [if_pos bound]
    exact congrArg some (Unsigned.eq_of_toNat_eq _ _
      (Unsigned.toNat_ofNat _ bound))

theorem checkedAdd_eq_some {left right result : α} :
    checkedAdd left right = some result ↔
      Unsigned.toNat result =
        Unsigned.toNat left + Unsigned.toNat right :=
  tryFrom_eq_some

theorem checkedMul_eq_some {left right result : α} :
    checkedMul left right = some result ↔
      Unsigned.toNat result =
        Unsigned.toNat left * Unsigned.toNat right :=
  tryFrom_eq_some

theorem checkedSub_eq_some {left right result : α} :
    checkedSub left right = some result ↔
      Unsigned.toNat left =
        Unsigned.toNat right + Unsigned.toNat result := by
  unfold checkedSub
  have leftBound := Unsigned.toNat_lt left
  constructor
  · intro subtracted
    split at subtracted
    · rename_i ordered
      rw [← Option.some.inj subtracted,
        Unsigned.toNat_ofNat _ (by omega)]
      omega
    · contradiction
  · intro equal
    rw [if_pos (by omega)]
    apply congrArg some
    apply Unsigned.eq_of_toNat_eq
    rw [Unsigned.toNat_ofNat _ (by omega)]
    omega

end Checked

/-! Sizes and offsets of a 64-bit host, kept as natural numbers with the
overflow test made explicit. -/

namespace Usize

def limit : Nat := 2 ^ 64

def checkedAdd (left right : Nat) : Option Nat :=
  if left + right < limit then some (left + right) else none

def checkedMul (left right : Nat) : Option Nat :=
  if left * right < limit then some (left * right) else none

def checkedSub (left right : Nat) : Option Nat :=
  if right ≤ left then some (left - right) else none

theorem checkedAdd_eq_some {left right result : Nat} :
    checkedAdd left right = some result ↔
      result = left + right ∧ left + right < limit := by
  unfold checkedAdd
  split <;> simp_all [eq_comm]

theorem checkedMul_eq_some {left right result : Nat} :
    checkedMul left right = some result ↔
      result = left * right ∧ left * right < limit := by
  unfold checkedMul
  split <;> simp_all [eq_comm]

theorem checkedSub_eq_some {left right result : Nat} :
    checkedSub left right = some result ↔ left = right + result := by
  unfold checkedSub
  split
  · simp only [Option.some.injEq]
    omega
  · simp only [reduceCtorEq, false_iff]
    omega

end Usize

/-! Early return. A fallible body is a straight line of binds, so that a
successful run is taken apart one step at a time. -/

def okOr (value : Option α) (error : ε) : Except ε α :=
  match value with
  | some result => .ok result
  | none => .error error

def rejectIf (bad : Prop) [Decidable bad] (error : ε) : Except ε Unit :=
  if bad then .error error else .ok ()

@[simp] theorem okOr_some (value : α) (error : ε) :
    okOr (some value) error = .ok value := rfl

@[simp] theorem okOr_none (error : ε) :
    okOr (none : Option α) error = .error error := rfl

@[simp] theorem okOr_eq_ok {value : Option α} {error : ε} {result : α} :
    okOr value error = .ok result ↔ value = some result := by
  cases value <;> simp

@[simp] theorem rejectIf_eq_ok {bad : Prop} [Decidable bad] {error : ε}
    {result : Unit} : rejectIf bad error = .ok result ↔ ¬ bad := by
  unfold rejectIf
  split <;> simp_all

@[simp] theorem okOr_eq_error {value : Option α} {error other : ε} :
    okOr value error = .error other ↔ value = none ∧ error = other := by
  cases value <;> simp

@[simp] theorem rejectIf_eq_error {bad : Prop} [Decidable bad]
    {error other : ε} :
    rejectIf bad error = .error other ↔ bad ∧ error = other := by
  unfold rejectIf
  split <;> simp_all

theorem rejectIf_neg {bad : Prop} [Decidable bad] (good : ¬ bad) (error : ε) :
    rejectIf bad error = .ok () :=
  if_neg good

theorem rejectIf_pos {bad : Prop} [Decidable bad] (holds : bad) (error : ε) :
    rejectIf bad error = .error error :=
  if_pos holds

theorem bind_eq_ok {first : Except ε α} {next : α → Except ε β} {result : β} :
    (first >>= next) = .ok result ↔
      ∃ value, first = .ok value ∧ next value = .ok result := by
  cases first with
  | error error => simp [bind, Except.bind]
  | ok value => simp [bind, Except.bind]

theorem bind_eq_error {first : Except ε α} {next : α → Except ε β}
    {error : ε} :
    (first >>= next) = .error error ↔ first = .error error ∨
      ∃ value, first = .ok value ∧ next value = .error error := by
  cases first with
  | error other => simp [bind, Except.bind]
  | ok value => simp [bind, Except.bind]

/-- What follows a step has to agree only where the step succeeds. -/
theorem bind_congr_ok {first : Except ε α} {next other : α → Except ε β}
    (same : ∀ value, first = .ok value → next value = other value) :
    (first >>= next) = (first >>= other) := by
  cases first with
  | error error => rfl
  | ok value => exact same value rfl

theorem map_eq_ok {first : Except ε α} {convert : α → β} {result : β} :
    first.map convert = .ok result ↔
      ∃ value, first = .ok value ∧ convert value = result := by
  cases first <;> simp [Except.map]

@[simp] theorem mapError_eq_ok {first : Except ε α} {convert : ε → η}
    {result : α} :
    first.mapError convert = .ok result ↔ first = .ok result := by
  cases first <;> simp [Except.mapError]

@[simp] theorem mapError_eq_error {first : Except ε α} {convert : ε → η}
    {error : η} :
    first.mapError convert = .error error ↔
      ∃ original, first = .error original ∧ convert original = error := by
  cases first <;> simp [Except.mapError]

@[simp] theorem ok_bind (value : α) (next : α → Except ε β) :
    (Except.ok value >>= next) = next value := rfl

@[simp] theorem error_bind (error : ε) (next : α → Except ε β) :
    ((Except.error error : Except ε α) >>= next) = .error error := rfl

theorem rejectIf_bind_eq_ok {bad : Prop} [Decidable bad] {error : ε}
    {next : Unit → Except ε α} {result : α} :
    (rejectIf bad error >>= next) = .ok result ↔
      ¬ bad ∧ next () = .ok result := by
  rw [bind_eq_ok]
  simp only [rejectIf_eq_ok]
  constructor
  · intro given
    obtain ⟨_, good, rest⟩ := given
    exact ⟨good, rest⟩
  · intro given
    exact ⟨(), given⟩

/-- A loop whose rounds fail with one error fails with that error. -/
theorem foldlM_eq_error {step : β → α → Except ε β} {failure : ε}
    (fails : ∀ state item error, step state item = .error error →
      error = failure) {items : List α} {state : β} {error : ε}
    (failed : items.foldlM step state = .error error) : error = failure := by
  induction items generalizing state with
  | nil => cases failed
  | cons item rest induction =>
      rw [List.foldlM_cons, bind_eq_error] at failed
      obtain here | ⟨next, _, later⟩ := failed
      · exact fails state item error here
      · exact induction later

@[simp] theorem pure_eq_ok (value : α) :
    (pure value : Except ε α) = .ok value := rfl

end LibVmi.Data
