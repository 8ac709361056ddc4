import LibVmi.Data.Json
import LibVmi.Data.Text
import Mathlib.Tactic.IntervalCases

namespace LibVmi.Data

/-! What numerals denote, and what the standard parser makes of them at any
width of the result. -/

section Numerals

variable (radix : Nat)

def valueFrom (value : Nat) : List Char → Nat
  | [] => value
  | char :: rest =>
      valueFrom (value * radix + (digitOf radix char).getD 0) rest

/-- One digit or more, with a value that the result has room for. -/
structure Denotes {α : Type} [Unsigned α] (digits : List Char) (value : α) :
    Prop where
  nonempty : digits ≠ []
  digits_only : ∀ char ∈ digits, (digitOf radix char).isSome
  value_eq : Unsigned.toNat value = valueFrom radix 0 digits

theorem le_valueFrom {radix : Nat} (positive : 0 < radix) (value : Nat)
    (digits : List Char) : value ≤ valueFrom radix value digits := by
  induction digits generalizing value with
  | nil => exact Nat.le_refl value
  | cons char rest induction =>
      calc
        value ≤ value * radix := Nat.le_mul_of_pos_right value positive
        _ ≤ value * radix + (digitOf radix char).getD 0 := Nat.le_add_right _ _
        _ ≤ _ := induction _

theorem digitOf_lt {radix digit : Nat} {char : Char}
    (accepted : digitOf radix char = some digit) : digit < radix := by
  unfold digitOf at accepted
  dsimp only at accepted
  generalize (if '0' ≤ char ∧ char ≤ '9' then _ else _ : Nat) = value at accepted
  split at accepted
  · rename_i bound
    rw [← Option.some.inj accepted]
    exact bound
  · cases accepted

theorem digitOf_bounds {radix : Nat} {char : Char}
    (accepted : (digitOf radix char).isSome) :
    48 ≤ char.toNat ∧ char.toNat ≤ 122 := by
  by_contra outside
  have beyond : ∀ low high : Char, 48 ≤ low.toNat → high.toNat ≤ 122 →
      ¬ (low ≤ char ∧ char ≤ high) := by
    intro low high least most within
    have above : low.toNat ≤ char.toNat := within.1
    have below : char.toNat ≤ high.toNat := within.2
    omega
  have none : digitOf radix char = none := by
    unfold digitOf
    dsimp only
    rw [if_neg (beyond '0' '9' (by decide) (by decide)),
      if_neg (beyond 'a' 'z' (by decide) (by decide)),
      if_neg (beyond 'A' 'Z' (by decide) (by decide)),
      if_neg (lt_irrefl radix)]
  rw [none] at accepted
  cases accepted

/-- No digit is white space. -/
theorem digitOf_plain {radix : Nat} {char : Char}
    (accepted : (digitOf radix char).isSome) : isWhitespace char = false := by
  have bounds := digitOf_bounds accepted
  by_contra blank
  rw [Bool.not_eq_false, isWhitespace] at blank
  simp only [Bool.or_eq_true, Bool.and_eq_true, decide_eq_true_eq,
    beq_iff_eq] at blank
  omega

theorem utf8Size_digit {radix : Nat} {char : Char}
    (accepted : (digitOf radix char).isSome) : char.utf8Size = 1 := by
  have bounds := digitOf_bounds accepted
  have small : char.val ≤ 0x7f := by
    rw [UInt32.le_iff_toNat_le]
    exact Nat.le_trans bounds.2 (by decide)
  rw [Char.utf8Size]
  exact if_pos small

theorem digitOf_plus : digitOf radix '+' = none :=
  if_neg (lt_irrefl radix)

theorem Denotes.unsigned {α : Type} [Unsigned α] {radix : Nat}
    {digits : List Char} {value : α}
    (denotes : Denotes radix digits value) : '+' ∉ digits := by
  intro member
  have accepted := denotes.digits_only '+' member
  rw [digitOf_plus] at accepted
  cases accepted

theorem valueFrom_append (value : Nat) (left right : List Char) :
    valueFrom radix value (left ++ right) =
      valueFrom radix (valueFrom radix value left) right := by
  induction left generalizing value with
  | nil => rfl
  | cons char rest induction => exact induction _

/-- What is printed in a radix up to sixteen denotes what was printed. -/
theorem denotes_toDigits {α : Type} [Unsigned α] {radix : Nat}
    (several : 1 < radix) (fits : radix ≤ 16) (value : α) :
    Denotes radix (Nat.toDigits radix (Unsigned.toNat value)) value := by
  have digit : ∀ digit < radix,
      digitOf radix digit.digitChar = some digit := by
    intro digit bound
    interval_cases radix <;> interval_cases digit <;> rfl
  have printed : ∀ number,
      (∀ char ∈ Nat.toDigits radix number, (digitOf radix char).isSome) ∧
      valueFrom radix 0 (Nat.toDigits radix number) = number := by
    intro number
    induction number using Nat.strong_induction_on with
    | h number induction =>
        rw [Nat.toDigits_eq_if several]
        split
        · rename_i small
          simp [valueFrom, digit number small]
        · rename_i large
          obtain ⟨only, value⟩ := induction (number / radix)
            (Nat.div_lt_self (by omega) several)
          have last := digit (number % radix) (Nat.mod_lt _ (by omega))
          refine ⟨?_, ?_⟩
          · intro char member
            obtain early | final := List.mem_append.mp member
            · exact only char early
            · rw [List.mem_singleton.mp final, last]
              rfl
          · rw [valueFrom_append, value, valueFrom, valueFrom, last,
              Option.getD_some, Nat.div_add_mod']
  exact ⟨Nat.toDigits_ne_nil, (printed _).1, (printed _).2.symm⟩

theorem valueFrom_zeros (radix count : Nat) (digits : List Char) :
    valueFrom radix 0 (List.replicate count '0' ++ digits) =
      valueFrom radix 0 digits := by
  have zero : (digitOf radix '0').getD 0 = 0 := by
    change (if 0 < radix then some 0 else none : Option Nat).getD 0 = 0
    split <;> rfl
  induction count with
  | zero => rfl
  | succ count induction =>
      rw [List.replicate_succ, List.cons_append, valueFrom, zero,
        Nat.zero_mul, induction]

/-- Zeros in front do not change what digits denote. -/
theorem Denotes.leftpad {α : Type} [Unsigned α] {radix : Nat}
    (positive : 0 < radix) {digits : List Char} {value : α}
    (denotes : Denotes radix digits value) (width : Nat) :
    Denotes radix (digits.leftpad width '0') value where
  nonempty := by
    unfold List.leftpad
    exact List.append_ne_nil_of_right_ne_nil _ denotes.nonempty
  digits_only := by
    intro char member
    obtain padded | given := List.mem_append.mp member
    · rw [List.eq_of_mem_replicate padded]
      change (if 0 < radix then some 0 else none : Option Nat).isSome
      rw [if_pos positive]
      rfl
    · exact denotes.digits_only char given
  value_eq := by
    rw [List.leftpad, valueFrom_zeros]
    exact denotes.value_eq

end Numerals

/-! The parser, with the width of its result as a parameter. -/

section Parser

variable {α : Type} [Unsigned α] (radix : Nat)

def parseUnsigned : List Char → α → Except String α
  | [], value => .ok value
  | char :: rest, value => do
      let digit ← okOr (digitOf radix char) "invalid digit found in string"
      let value ← okOr
        ((checkedMul value (Unsigned.ofNat radix)).bind
          (checkedAdd · (Unsigned.ofNat digit)))
        "number too large to fit in target type"
      parseUnsigned rest value

def unsignedFromStr : List Char → Except String α
  | [] => .error "cannot parse integer from empty string"
  | ['+'] => .error "invalid digit found in string"
  | '+' :: digits => parseUnsigned radix digits (Unsigned.ofNat 0)
  | digits => parseUnsigned radix digits (Unsigned.ofNat 0)

/-- One more digit is taken in where the value it gives fits. -/
theorem accumulate_eq_some {radix digit : Nat}
    (fits : radix < 2 ^ Unsigned.bits α) (below : digit < 2 ^ Unsigned.bits α)
    {value next : α} :
    (checkedMul value (Unsigned.ofNat radix)).bind
        (checkedAdd · (Unsigned.ofNat digit)) = some next ↔
      Unsigned.toNat next = Unsigned.toNat value * radix + digit := by
  rw [Option.bind_eq_some_iff]
  simp only [checkedMul_eq_some, checkedAdd_eq_some,
    Unsigned.toNat_ofNat radix fits, Unsigned.toNat_ofNat digit below]
  constructor
  · intro given
    obtain ⟨product, multiplied, added⟩ := given
    rw [added, multiplied]
  · intro total
    have room := Unsigned.toNat_lt next
    have product : Unsigned.toNat value * radix < 2 ^ Unsigned.bits α := by
      omega
    refine ⟨Unsigned.ofNat (Unsigned.toNat value * radix), ?_, ?_⟩
    · rw [Unsigned.toNat_ofNat _ product]
    · rw [Unsigned.toNat_ofNat _ product, total]

theorem parseUnsigned_eq_ok {radix : Nat} (positive : 0 < radix)
    (fits : radix < 2 ^ Unsigned.bits α) (digits : List Char)
    (value result : α) :
    parseUnsigned radix digits value = .ok result ↔
      (∀ char ∈ digits, (digitOf radix char).isSome) ∧
      Unsigned.toNat result = valueFrom radix (Unsigned.toNat value) digits := by
  induction digits generalizing value with
  | nil =>
      simp only [parseUnsigned, Except.ok.injEq, List.not_mem_nil, valueFrom,
        false_implies, implies_true, true_and]
      constructor
      · intro same
        rw [same]
      · intro same
        exact Unsigned.eq_of_toNat_eq _ _ same.symm
  | cons char rest induction =>
      rw [parseUnsigned, valueFrom, List.forall_mem_cons]
      cases accepted : digitOf radix char with
      | none => simp
      | some digit =>
          have below : digit < 2 ^ Unsigned.bits α :=
            Nat.lt_trans (digitOf_lt accepted) fits
          simp only [okOr_some, ok_bind, Option.isSome_some, true_and,
            Option.getD_some]
          rw [bind_eq_ok]
          simp only [okOr_eq_ok, accumulate_eq_some fits below]
          constructor
          · intro given
            obtain ⟨next, total, parsed⟩ := given
            rw [← total]
            exact (induction next).mp parsed
          · intro given
            obtain ⟨only, total⟩ := given
            have reached := le_valueFrom positive
              (Unsigned.toNat value * radix + digit) rest
            have room := Unsigned.toNat_lt result
            have next := Unsigned.toNat_ofNat (α := α)
              (Unsigned.toNat value * radix + digit) (by omega)
            refine ⟨Unsigned.ofNat _, next, (induction _).mpr ⟨only, ?_⟩⟩
            rw [next, total]

theorem parseUnsigned_zero {radix : Nat} (positive : 0 < radix)
    (fits : radix < 2 ^ Unsigned.bits α) {digits : List Char}
    (nonempty : digits ≠ []) (result : α) :
    parseUnsigned radix digits (Unsigned.ofNat 0) = .ok result ↔
      Denotes radix digits result := by
  have zero : Unsigned.toNat (Unsigned.ofNat (α := α) 0) = 0 :=
    Unsigned.toNat_ofNat 0 (Nat.two_pow_pos _)
  rw [parseUnsigned_eq_ok positive fits, zero]
  constructor
  · intro given
    exact ⟨nonempty, given.1, given.2⟩
  · intro denotes
    exact ⟨denotes.digits_only, denotes.value_eq⟩

/-- The parser accepts what denotes a value, and the same behind one plus. -/
theorem unsignedFromStr_eq_ok {radix : Nat} (positive : 0 < radix)
    (fits : radix < 2 ^ Unsigned.bits α) (text : List Char) (result : α) :
    unsignedFromStr radix text = .ok result ↔
      Denotes radix text result ∨
      ∃ digits, text = '+' :: digits ∧ Denotes radix digits result := by
  unfold unsignedFromStr
  split
  · simp only [reduceCtorEq, List.nil_eq, false_and, exists_false, or_false,
      false_iff]
    intro denotes
    exact denotes.nonempty rfl
  · simp only [reduceCtorEq, List.cons.injEq, true_and, exists_eq_left',
      false_iff, not_or]
    constructor
    · intro denotes
      exact denotes.unsigned List.mem_cons_self
    · intro denotes
      exact denotes.nonempty rfl
  · rename_i digits more
    rw [parseUnsigned_zero positive fits more]
    constructor
    · intro denotes
      exact .inr ⟨digits, rfl, denotes⟩
    · intro given
      obtain denotes | ⟨rest, same, denotes⟩ := given
      · exact absurd List.mem_cons_self denotes.unsigned
      · cases same
        exact denotes
  · rename_i empty _ unsigned
    rw [parseUnsigned_zero positive fits empty]
    constructor
    · exact Or.inl
    · intro given
      obtain denotes | ⟨rest, same, _⟩ := given
      · exact denotes
      · exact absurd same (unsigned rest)

end Parser

theorem parseDigits_eq (radix : Nat) (digits : List Char) (value : UInt64) :
    parseDigits radix digits value = parseUnsigned radix digits value := by
  induction digits generalizing value with
  | nil => rfl
  | cons char rest induction =>
      rw [parseDigits, parseUnsigned]
      simp only [induction]
      rfl

theorem fromStrRadix_eq (radix : Nat) (text : List Char) :
    fromStrRadix radix text = unsignedFromStr radix text := by
  unfold fromStrRadix unsignedFromStr
  split <;> simp only [parseDigits_eq] <;> rfl

theorem fromStrRadix_eq_ok {radix : Nat} (positive : 0 < radix)
    (fits : radix < 2 ^ 64) (text : List Char) (result : UInt64) :
    fromStrRadix radix text = .ok result ↔
      Denotes radix text result ∨
      ∃ digits, text = '+' :: digits ∧ Denotes radix digits result := by
  rw [fromStrRadix_eq]
  exact unsignedFromStr_eq_ok positive fits text result

end LibVmi.Data
