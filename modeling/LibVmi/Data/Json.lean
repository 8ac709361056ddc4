import LibVmi.Data.Checked

namespace LibVmi.Data

/-! JSON values as the parser hands them over. An object's keys are distinct. -/

inductive JsonNumber where
  | posInt (value : UInt64)
  | negInt (value : Int64)
  | float (bits : UInt64)
  deriving DecidableEq, Repr

inductive Json where
  | null
  | bool (value : Bool)
  | number (value : JsonNumber)
  | string (value : String)
  | array (values : List Json)
  | object (fields : List (String × Json))
  deriving Repr

namespace Json

def asU64 : Json → Option UInt64
  | .number (.posInt value) => some value
  | _ => none

def asStr : Json → Option String
  | .string value => some value
  | _ => none

theorem asStr_eq_some {value : Json} {text : String} :
    value.asStr = some text ↔ value = .string text := by
  cases value <;> simp [asStr]

def asArray : Json → Option (List Json)
  | .array values => some values
  | _ => none

def asObject : Json → Option (List (String × Json))
  | .object fields => some fields
  | _ => none

def field (fields : List (String × Json)) (key : String) : Option Json :=
  fields.lookup key

/-- `Value::get`, which finds nothing in a value that is not an object. -/
def get (value : Json) (key : String) : Option Json :=
  value.asObject.bind fun fields => field fields key

end Json

/-! Unsigned decimal and hexadecimal numerals, with the reports of the standard
parser. -/

def digitOf (radix : Nat) (char : Char) : Option Nat :=
  let value :=
    if '0' ≤ char ∧ char ≤ '9' then char.toNat - '0'.toNat
    else if 'a' ≤ char ∧ char ≤ 'z' then char.toNat - 'a'.toNat + 10
    else if 'A' ≤ char ∧ char ≤ 'Z' then char.toNat - 'A'.toNat + 10
    else radix
  if value < radix then some value else none

def parseDigits (radix : Nat) : List Char → UInt64 → Except String UInt64
  | [], value => .ok value
  | char :: rest, value => do
      let digit ← okOr (digitOf radix char) "invalid digit found in string"
      let value ← okOr
        ((checkedMul value (UInt64.ofNat radix)).bind
          (checkedAdd · (UInt64.ofNat digit)))
        "number too large to fit in target type"
      parseDigits radix rest value

def fromStrRadix (radix : Nat) : List Char → Except String UInt64
  | [] => .error "cannot parse integer from empty string"
  | ['+'] => .error "invalid digit found in string"
  | '+' :: digits => parseDigits radix digits 0
  | digits => parseDigits radix digits 0

end LibVmi.Data
