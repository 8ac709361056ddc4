import LibVmi.Data.Checked

namespace LibVmi.Data

/-! Text decoded as the standard library of the source decodes it. -/

/-- What is well formed, and how long the sequence after it is that is not. It
has no length where the text ends within it. -/
structure Utf8Error where
  validUpTo : Nat
  errorLen : Option Nat
  deriving DecidableEq, Repr

def Utf8Error.display (error : Utf8Error) : String :=
  match error.errorLen with
  | some length =>
      s!"invalid utf-8 sequence of {length} bytes from index {error.validUpTo}"
  | none =>
      s!"incomplete utf-8 byte sequence from index {error.validUpTo}"

/-- The ranges of the bytes that follow a first byte. -/
def followRanges (first : UInt8) : Option (List (UInt8 × UInt8)) :=
  if first < 0x80 then some []
  else if first < 0xc2 then none
  else if first < 0xe0 then some [(0x80, 0xbf)]
  else if first = 0xe0 then some [(0xa0, 0xbf), (0x80, 0xbf)]
  else if first = 0xed then some [(0x80, 0x9f), (0x80, 0xbf)]
  else if first < 0xf0 then some [(0x80, 0xbf), (0x80, 0xbf)]
  else if first = 0xf0 then some [(0x90, 0xbf), (0x80, 0xbf), (0x80, 0xbf)]
  else if first < 0xf4 then some [(0x80, 0xbf), (0x80, 0xbf), (0x80, 0xbf)]
  else if first = 0xf4 then some [(0x80, 0x8f), (0x80, 0xbf), (0x80, 0xbf)]
  else none

/-- Whether the bytes lie in the ranges. The error is the number of bytes before
the first that does not, where there is one. -/
def followsRanges : (ranges : List (UInt8 × UInt8)) → (taken : Nat) →
    List UInt8 → Except (Option Nat) Unit
  | [], _, _ => .ok ()
  | _ :: _, _, [] => .error none
  | (low, high) :: ranges, taken, byte :: rest =>
      if low ≤ byte ∧ byte ≤ high then
        followsRanges ranges (taken + 1) rest
      else
        .error (some taken)

/-- The character of a sequence, from its first byte on. -/
def sequenceChar (first : UInt8) (rest : List UInt8) : Char :=
  let lead := first.toNat % 2 ^ (if rest.isEmpty then 7 else 6 - rest.length)
  Char.ofNat (rest.foldl (fun value byte => value * 64 + byte.toNat % 64) lead)

def utf8Chars (position : Nat) : List UInt8 → Except Utf8Error (List Char)
  | [] => .ok []
  | first :: rest =>
      match followRanges first with
      | none => .error ⟨position, some 1⟩
      | some ranges =>
          match followsRanges ranges 1 rest with
          | .error length => .error ⟨position, length⟩
          | .ok _ => do
              let chars ← utf8Chars (position + (ranges.length + 1))
                (rest.drop ranges.length)
              return sequenceChar first (rest.take ranges.length) :: chars
termination_by bytes => bytes.length
decreasing_by simp only [List.length_drop, List.length_cons]; omega

def fromUtf8 (bytes : List UInt8) : Except Utf8Error String :=
  (utf8Chars 0 bytes).map String.ofList

def isSurrogate (unit : UInt16) : Bool :=
  0xd800 ≤ unit && unit < 0xe000

def isLowSurrogate (unit : UInt16) : Bool :=
  0xdc00 ≤ unit && unit < 0xe000

/-- The error is the first surrogate that is not one of a pair. -/
def decodeUtf16 : List UInt16 → Except UInt16 (List Char)
  | [] => .ok []
  | unit :: rest =>
      if !isSurrogate unit then do
        let chars ← decodeUtf16 rest
        return Char.ofNat unit.toNat :: chars
      else if isLowSurrogate unit then
        .error unit
      else
        match rest with
        | [] => .error unit
        | second :: rest =>
            if !isLowSurrogate second then
              .error unit
            else do
              let chars ← decodeUtf16 rest
              return Char.ofNat (0x10000 + (unit.toNat - 0xd800) * 1024 +
                (second.toNat - 0xdc00)) :: chars

theorem followsRanges_error {ranges : List (UInt8 × UInt8)} {taken length : Nat}
    {bytes : List UInt8}
    (failed : followsRanges ranges taken bytes = .error (some length)) :
    taken ≤ length := by
  induction ranges generalizing taken bytes with
  | nil => contradiction
  | cons range ranges induction =>
      cases bytes with
      | nil => cases failed
      | cons byte rest =>
          rw [followsRanges] at failed
          split at failed
          · exact Nat.le_of_succ_le (induction failed)
          · cases failed
            exact Nat.le_refl _

theorem utf8Chars_error {position : Nat} {bytes : List UInt8}
    {error : Utf8Error} {length : Nat}
    (failed : utf8Chars position bytes = .error error)
    (measured : error.errorLen = some length) : 0 < length := by
  induction position, bytes using utf8Chars.induct with
  | case1 position =>
      rw [utf8Chars] at failed
      contradiction
  | case2 position first rest unknown =>
      rw [utf8Chars, unknown] at failed
      cases failed
      cases measured
      exact Nat.one_pos
  | case3 position first rest ranges known length' stopped =>
      rw [utf8Chars, known] at failed
      simp only [stopped] at failed
      cases failed
      cases measured
      exact followsRanges_error stopped
  | case4 position first rest ranges known done followed induction =>
      rw [utf8Chars, known] at failed
      simp only [followed] at failed
      rcases bind_eq_error.mp failed with later | ⟨_, _, impossible⟩
      · exact induction later
      · contradiction

/-- An ill-formed sequence is at least one byte long. -/
theorem fromUtf8_error {bytes : List UInt8} {error : Utf8Error} {length : Nat}
    (failed : fromUtf8 bytes = .error error)
    (measured : error.errorLen = some length) : 0 < length := by
  unfold fromUtf8 at failed
  cases decoded : utf8Chars 0 bytes with
  | ok chars =>
      rw [decoded] at failed
      contradiction
  | error other =>
      rw [decoded] at failed
      cases failed
      exact utf8Chars_error decoded measured

theorem fromUtf8_empty {bytes : List UInt8} (decoded : fromUtf8 bytes = .ok "") :
    bytes = [] := by
  obtain ⟨chars, decoded, empty⟩ := map_eq_ok.mp decoded
  rw [String.ofList_eq_empty_iff] at empty
  subst chars
  cases bytes with
  | nil => rfl
  | cons first rest =>
      rw [utf8Chars] at decoded
      split at decoded
      · contradiction
      · split at decoded
        · contradiction
        · obtain ⟨chars, _, impossible⟩ := bind_eq_ok.mp decoded
          cases impossible

example : fromUtf8 [0x41, 0xe2, 0x82] = .error ⟨1, none⟩ := by
  decide +kernel

example : fromUtf8 [0xf0, 0x28, 0x8c] = .error ⟨0, some 1⟩ := by
  decide +kernel

end LibVmi.Data
