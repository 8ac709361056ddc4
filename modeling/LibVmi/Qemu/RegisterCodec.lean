import LibVmi.Data.LossyUtf8
import LibVmi.Qemu.Gdb

namespace LibVmi.Qemu.Gdb

open Data

/-! Register values as the text of a packet: two digits a byte, the lowest byte
first. -/

def IsHexDigit (char : Char) : Prop :=
  ('0' ≤ char ∧ char ≤ '9') ∨ ('a' ≤ char ∧ char ≤ 'f') ∨
    ('A' ≤ char ∧ char ≤ 'F')

instance decidableIsHexDigit (char : Char) : Decidable (IsHexDigit char) :=
  inferInstanceAs (Decidable (_ ∨ _ ∨ _))

def lowerByte (byte : UInt8) : UInt8 :=
  if 65 ≤ byte ∧ byte ≤ 90 then byte + 32 else byte

/-! Single digits, by all their values. -/

theorem hexByte_halves (byte : UInt8) :
    hexNibble (hexDigit (byte >>> 4)) = some (byte >>> 4) ∧
      hexNibble (hexDigit (byte &&& 0xf)) = some (byte &&& 0xf) ∧
      ((byte >>> 4) <<< 4) ||| (byte &&& 0xf) = byte := by
  have all : ∀ value : Fin 256,
      let byte := UInt8.ofFin value
      hexNibble (hexDigit (byte >>> 4)) = some (byte >>> 4) ∧
        hexNibble (hexDigit (byte &&& 0xf)) = some (byte &&& 0xf) ∧
        ((byte >>> 4) <<< 4) ||| (byte &&& 0xf) = byte := by
    decide +kernel
  exact all byte.toFin

theorem hexNibble_eq_some {digit nibble : UInt8}
    (read : hexNibble digit = some nibble) :
    digit.toNat < 0x80 ∧ nibble < 16 ∧ hexDigit nibble = lowerByte digit := by
  have all : ∀ value : Fin 256, ∀ nibble ∈ hexNibble (UInt8.ofFin value),
      (UInt8.ofFin value).toNat < 0x80 ∧ nibble < 16 ∧
        hexDigit nibble = lowerByte (UInt8.ofFin value) := by
    decide +kernel
  exact all digit.toFin nibble read

theorem hexByte_join {high low : UInt8} (highBound : high < 16)
    (lowBound : low < 16) :
    hexByte ((high <<< 4) ||| low) = [hexDigit high, hexDigit low] := by
  have all : ∀ high low : Fin 16,
      hexByte (((UInt8.ofNat high) <<< 4) ||| UInt8.ofNat low) =
        [hexDigit (UInt8.ofNat high), hexDigit (UInt8.ofNat low)] := by
    decide +kernel
  have found := all ⟨high.toNat, UInt8.lt_iff_toNat_lt.mp highBound⟩
    ⟨low.toNat, UInt8.lt_iff_toNat_lt.mp lowBound⟩
  simpa only [UInt8.ofNat_toNat] using found

theorem isHexDigit_iff {char : Char} (ascii : char.toNat < 0x80) :
    ((hexNibble (UInt8.ofNat char.toNat)).isSome ↔ IsHexDigit char) ∧
      lowerByte (UInt8.ofNat char.toNat) = UInt8.ofNat char.toLower.toNat ∧
      char.toLower.toNat < 0x80 := by
  have all : ∀ code : Fin 0x80,
      let char := Char.ofNat code
      ((hexNibble (UInt8.ofNat char.toNat)).isSome ↔ IsHexDigit char) ∧
        lowerByte (UInt8.ofNat char.toNat) = UInt8.ofNat char.toLower.toNat ∧
        char.toLower.toNat < 0x80 := by
    decide +kernel
  have found := all ⟨char.toNat, ascii⟩
  simpa only [Char.ofNat_toNat] using found

theorem IsHexDigit.ascii {char : Char} (digit : IsHexDigit char) :
    char.toNat < 0x80 := by
  rcases digit with ⟨_, most⟩ | ⟨_, most⟩ | ⟨_, most⟩ <;>
    exact Nat.lt_of_le_of_lt (UInt32.le_iff_toNat_le.mp most) (by decide)

/-! Whole texts. -/

theorem decodePairs_hexBytes (bytes : List UInt8) (position : Nat) :
    decodePairs position (bytes.flatMap hexByte) = .ok bytes := by
  induction bytes generalizing position with
  | nil => rfl
  | cons byte bytes induction =>
      obtain ⟨high, low, whole⟩ := hexByte_halves byte
      rw [List.flatMap_cons, hexByte, List.cons_append, List.singleton_append,
        decodePairs, high, low]
      simp only [induction, ok_bind, whole]
      rfl

theorem decodePairs_ok {count position : Nat} {digits bytes : List UInt8}
    (paired : digits.length = 2 * count)
    (read : decodePairs position digits = .ok bytes) :
    bytes.length = count ∧ (∀ digit ∈ digits, (hexNibble digit).isSome) ∧
      bytes.flatMap hexByte = digits.map lowerByte := by
  induction count generalizing position digits bytes with
  | zero =>
      rw [List.length_eq_zero_iff.mp paired] at read ⊢
      cases read
      exact ⟨rfl, by simp, rfl⟩
  | succ count induction =>
      obtain ⟨high, low, rest, rfl⟩ : ∃ high low rest,
          digits = high :: low :: rest := by
        match digits, paired with
        | [], impossible => simp at impossible
        | [_], impossible => simp at impossible; omega
        | high :: low :: rest, _ => exact ⟨high, low, rest, rfl⟩
      rw [decodePairs] at read
      split at read
      · rename_i highNibble lowNibble highRead lowRead
        obtain ⟨others, later, read⟩ := bind_eq_ok.mp read
        cases read
        obtain ⟨length, known, spelled⟩ := induction (by
          simp only [List.length_cons] at paired
          omega) later
        obtain ⟨_, highBound, highEq⟩ := hexNibble_eq_some highRead
        obtain ⟨_, lowBound, lowEq⟩ := hexNibble_eq_some lowRead
        refine ⟨by rw [List.length_cons, length], ?_, ?_⟩
        · simp only [List.forall_mem_cons, highRead, lowRead, Option.isSome_some,
            true_and]
          exact known
        · rw [List.flatMap_cons, hexByte_join highBound lowBound, spelled, highEq,
            lowEq]
          rfl
      · contradiction

theorem decodePairs_exists {digits : List UInt8}
    (known : ∀ digit ∈ digits, (hexNibble digit).isSome) (position : Nat) :
    ∃ bytes, decodePairs position digits = .ok bytes := by
  induction digits using List.twoStepInduction generalizing position with
  | nil => exact ⟨[], rfl⟩
  | singleton digit => exact ⟨[], rfl⟩
  | cons_cons high low rest induction _ =>
      simp only [List.forall_mem_cons] at known
      obtain ⟨highNibble, highRead⟩ := Option.isSome_iff_exists.mp known.1
      obtain ⟨lowNibble, lowRead⟩ := Option.isSome_iff_exists.mp known.2.1
      obtain ⟨bytes, later⟩ := induction known.2.2 (position + 2)
      rw [decodePairs, highRead, lowRead]
      exact ⟨_, by simp only [later, ok_bind]; rfl⟩

theorem textBytes_eq (text : String) :
    textBytes text = text.toList.flatMap String.utf8EncodeChar := by
  have spelled : text.toByteArray = text.toList.utf8Encode := by
    rw [← String.toByteArray_ofList, String.ofList_toList]
  rw [textBytes, String.toUTF8_eq_toByteArray, spelled, List.utf8Encode,
    List.data_toByteArray]

theorem decodeLittleHex_ok {digits : List UInt8} {width : Nat} {value : UInt64} :
    decodeLittleHex digits width = .ok value ↔
      width ≤ 8 ∧ digits.length = 2 * width ∧
        ∃ bytes, decodePairs 0 digits = .ok bytes ∧
          value = UInt64.ofNat (fromLe bytes) := by
  unfold decodeLittleHex
  simp only [bind_eq_ok, rejectIf_eq_ok, not_or, not_lt, ne_eq, not_not,
    Usize.checkedMul_eq_some]
  constructor
  · rintro ⟨_, ⟨narrow, length, _⟩, bytes, read, decoded⟩
    cases decoded
    exact ⟨narrow, by omega, bytes, read, rfl⟩
  · rintro ⟨narrow, length, bytes, read, rfl⟩
    refine ⟨(), ⟨narrow, by omega, ?_⟩, bytes, read, rfl⟩
    change _ < 2 ^ 64
    omega

theorem encodeLittleHex_ok {value : UInt64} {width : Nat}
    {encoded : List UInt8} :
    encodeLittleHex value width = .ok encoded ↔
      width ≤ 8 ∧ encoded = (toLe width value.toNat).flatMap hexByte := by
  unfold encodeLittleHex
  simp only [bind_eq_ok, rejectIf_eq_ok, not_lt]
  constructor
  · rintro ⟨_, narrow, spelled⟩
    cases spelled
    exact ⟨narrow, by rw [toLe_take narrow]⟩
  · rintro ⟨narrow, rfl⟩
    exact ⟨(), narrow, by rw [toLe_take narrow]; rfl⟩

/-- What is encoded is decoded as what fits the width. -/
theorem decode_encode {width : Nat} (narrow : width ≤ 8) (value : UInt64) :
    decodeLittleHex ((toLe width value.toNat).flatMap hexByte) width =
      .ok (UInt64.ofNat (value.toNat % 2 ^ (8 * width))) := by
  rw [decodeLittleHex_ok]
  refine ⟨narrow, ?_, _, decodePairs_hexBytes _ 0, ?_⟩
  · have two : ∀ byte, (hexByte byte).length = 2 := fun _ => rfl
    rw [List.length_flatMap]
    simp [two]
    omega
  · rw [fromLe_toLe_mod, Nat.pow_mul]

/-- Texts that are decoded are digits alone, and are encoded in lower case. -/
theorem encode_decode {digits : List UInt8} {width : Nat} {value : UInt64}
    (decoded : decodeLittleHex digits width = .ok value) :
    (∀ digit ∈ digits, (hexNibble digit).isSome) ∧
      encodeLittleHex value width = .ok (digits.map lowerByte) := by
  obtain ⟨narrow, paired, bytes, read, rfl⟩ := decodeLittleHex_ok.mp decoded
  obtain ⟨length, known, spelled⟩ := decodePairs_ok paired read
  refine ⟨known, encodeLittleHex_ok.mpr ⟨narrow, ?_⟩⟩
  have bound := fromLe_lt bytes
  have fits : 256 ^ bytes.length ≤ 256 ^ 8 :=
    Nat.pow_le_pow_right (by decide) (by omega)
  rw [UInt64.toNat_ofNat_of_lt' (Nat.lt_of_lt_of_le bound fits), ← length,
    toLe_fromLe, spelled]

theorem decode_text_iff (text : String) {width : Nat} (narrow : width ≤ 8) :
    (∃ value, decodeLittleHex (textBytes text) width = .ok value) ↔
      text.toList.length = 2 * width ∧
        ∀ char ∈ text.toList, IsHexDigit char := by
  rw [textBytes_eq]
  constructor
  · rintro ⟨value, decoded⟩
    have known := (encode_decode decoded).1
    have ascii : ∀ char ∈ text.toList, char.toNat < 0x80 := by
      apply ascii_of_encode
      intro byte member
      obtain ⟨nibble, read⟩ := Option.isSome_iff_exists.mp (known byte member)
      exact (hexNibble_eq_some read).1
    have paired := (decodeLittleHex_ok.mp decoded).2.1
    rw [encode_ascii ascii] at known paired
    rw [List.length_map] at paired
    refine ⟨paired, ?_⟩
    intro char member
    exact (isHexDigit_iff (ascii char member)).1.mp
      (known _ (List.mem_map_of_mem member))
  · rintro ⟨paired, digits⟩
    have ascii : ∀ char ∈ text.toList, char.toNat < 0x80 :=
      fun char member => (digits char member).ascii
    have known : ∀ digit ∈
        text.toList.map (fun char => UInt8.ofNat char.toNat),
        (hexNibble digit).isSome := by
      rw [List.forall_mem_map]
      intro char member
      exact (isHexDigit_iff (ascii char member)).1.mpr (digits char member)
    obtain ⟨bytes, read⟩ := decodePairs_exists known 0
    rw [encode_ascii ascii]
    exact ⟨_, decodeLittleHex_ok.mpr
      ⟨narrow, by rw [List.length_map, paired], bytes, read, rfl⟩⟩

theorem lowerByte_text {text : String}
    (digits : ∀ char ∈ text.toList, IsHexDigit char) :
    (textBytes text).map lowerByte = textBytes (text.map Char.toLower) := by
  have lower : ∀ char ∈ text.toList.map Char.toLower, char.toNat < 0x80 := by
    rw [List.forall_mem_map]
    intro char member
    exact (isHexDigit_iff (digits char member).ascii).2.2
  rw [textBytes_eq, textBytes_eq, String.toList_map, encode_ascii lower,
    encode_ascii fun char member => (digits char member).ascii, List.map_map,
    List.map_map]
  apply List.map_congr_left
  intro char member
  exact (isHexDigit_iff (digits char member).ascii).2.1

/-! What is sent. -/

theorem checkFits_eq_ok {width : Nat} {value : UInt64} (narrow : width ≤ 8) :
    checkFits width value = .ok () ↔ value.toNat < 2 ^ (8 * width) := by
  have bits : Usize.checkedMul width 8 = some (width * 8) :=
    Usize.checkedMul_eq_some.mpr ⟨rfl, by simp only [Usize.limit]; omega⟩
  unfold checkFits
  rw [bits, okOr_some, ok_bind, rejectIf_eq_ok]
  rcases Nat.lt_or_eq_of_le narrow with small | rfl
  · obtain ⟨word, shifted, wordEq⟩ := one_checkedShl (width * 8) (by omega)
    rw [if_pos (by omega), shifted, Nat.mul_comm 8, ← wordEq]
    simp [small]
  · simpa using value.toNat_lt

theorem writeRequest_ok {register : UInt32} {width : Nat} {value : UInt64}
    {request : List UInt8}
    (requested : writeRequest register width value = .ok request) :
    width ≤ 8 ∧ value.toNat < 2 ^ (8 * width) ∧
      ∃ encoded, request = 80 :: (hexNumber register.toNat ++ 61 :: encoded) ∧
        encodeLittleHex value width = .ok encoded ∧
        decodeLittleHex encoded width = .ok value := by
  unfold writeRequest at requested
  obtain ⟨_, fits, requested⟩ := bind_eq_ok.mp requested
  obtain ⟨encoded, spelled, requested⟩ := bind_eq_ok.mp requested
  obtain ⟨_, _, requested⟩ := bind_eq_ok.mp requested
  cases requested
  obtain ⟨narrow, rfl⟩ := encodeLittleHex_ok.mp spelled
  have below := (checkFits_eq_ok narrow).mp fits
  refine ⟨narrow, below, _, rfl, spelled, ?_⟩
  rw [decode_encode narrow, Nat.mod_eq_of_lt below, UInt64.ofNat_toNat]

theorem writeRequest_exists (register : UInt32) {width : Nat} {value : UInt64}
    (narrow : width ≤ 8) (below : value.toNat < 2 ^ (8 * width)) :
    ∃ request, writeRequest register width value = .ok request := by
  have short : ((toLe width value.toNat).flatMap hexByte).length + 10 <
      Usize.limit := by
    have pairs : ((toLe width value.toNat).flatMap hexByte).length =
        width * 2 := by
      simp [List.length_flatMap, hexByte]
    rw [pairs, Usize.limit]
    omega
  unfold writeRequest
  rw [(checkFits_eq_ok narrow).mpr below, ok_bind,
    encodeLittleHex_ok.mpr ⟨narrow, rfl⟩, ok_bind,
    Usize.checkedAdd_eq_some.mpr ⟨rfl, short⟩]
  exact ⟨_, rfl⟩

theorem command_packets (peer : List (List UInt8) → List UInt8) (timeout : Nat)
    (attempt : Attempt) (payload : List UInt8) (wire : Wire) :
    let (answer, after) := command peer timeout attempt payload wire
    if (attempt.write (packet payload)).reaches then
      after.packets = wire.packets ++ [payload]
    else after.packets = wire.packets ∧ ∃ error, answer = some (.error error) := by
  unfold command
  cases attempt.write (packet payload) with
  | lost error => exact ⟨rfl, _, rfl⟩
  | sentFailed error => exact rfl
  | sent => exact rfl

/-- What a call sends is its request, and it succeeds only where it has sent
it. -/
theorem exchange_packets {request : Result (List UInt8)}
    (interpret : String → Result α) (peer : List (List UInt8) → List UInt8)
    (timeout : Nat) (attempt : Attempt) (wire : Wire) :
    let (answer, after) := exchange request interpret peer timeout attempt wire
    (after.packets = wire.packets ∧
        (∃ error, answer = some (.error error)) ∧
        ∀ payload, request = .ok payload →
          (attempt.write (packet payload)).reaches = false) ∨
      ∃ payload, request = .ok payload ∧
        after.packets = wire.packets ++ [payload] := by
  cases request with
  | error error => exact .inl ⟨rfl, ⟨_, rfl⟩, nofun⟩
  | ok payload =>
      have sends := command_packets peer timeout attempt payload wire
      dsimp only [exchange]
      generalize command peer timeout attempt payload wire = outcome at sends ⊢
      obtain ⟨answer, after⟩ := outcome
      dsimp only at sends ⊢
      split at sends
      · exact .inr ⟨payload, rfl, sends⟩
      · rename_i lost
        obtain ⟨kept, error, rfl⟩ := sends
        refine .inl ⟨kept, ⟨error, rfl⟩, ?_⟩
        rintro _ ⟨⟩
        exact Bool.eq_false_iff.mpr lost

/-- Encoding and decoding undo each other, a packet that writes a register
carries all of the value, and a write that the stub accepts has sent one. -/
theorem register_codec :
    (∀ width ≤ 8, ∀ value : UInt64, ∃ encoded,
      encodeLittleHex value width = .ok encoded ∧
        decodeLittleHex encoded width =
          .ok (UInt64.ofNat (value.toNat % 2 ^ (8 * width)))) ∧
    (∀ width ≤ 8, ∀ text : String,
      ((∃ value, decodeLittleHex (textBytes text) width = .ok value) ↔
        text.toList.length = 2 * width ∧
          ∀ char ∈ text.toList, IsHexDigit char) ∧
      ∀ value, decodeLittleHex (textBytes text) width = .ok value →
        encodeLittleHex value width =
          .ok (textBytes (text.map Char.toLower))) ∧
    ∀ peer timeout attempt register width value wire,
      let (answer, after) :=
        writeRegister peer timeout attempt register width value wire
      (after.packets = wire.packets ∧ (∃ error, answer = some (.error error)) ∨
        width ≤ 8 ∧ value.toNat < 2 ^ (8 * width) ∧
          ∃ encoded, decodeLittleHex encoded width = .ok value ∧
            after.packets = wire.packets ++
              [80 :: (hexNumber register.toNat ++ 61 :: encoded)]) ∧
      (width ≤ 8 → value.toNat < 2 ^ (8 * width) →
        (∀ request, (attempt.write request).reaches = true) →
          after.packets ≠ wire.packets) := by
  refine ⟨?_, ?_, ?_⟩
  · intro width narrow value
    exact ⟨_, encodeLittleHex_ok.mpr ⟨narrow, rfl⟩, decode_encode narrow value⟩
  · intro width narrow text
    refine ⟨decode_text_iff text narrow, ?_⟩
    intro value decoded
    have digits := ((decode_text_iff text narrow).mp ⟨value, decoded⟩).2
    rw [(encode_decode decoded).2, lowerByte_text digits]
  · intro peer timeout attempt register width value wire
    have sends := @exchange_packets _ (writeRequest register width value)
      (fun response => rejectIf (response ≠ "OK")
        (.backend s!"unexpected GDB write response: {response}")) peer timeout
      attempt wire
    unfold writeRegister
    generalize exchange (writeRequest register width value) _ peer timeout
      attempt wire = outcome at sends ⊢
    obtain ⟨answer, after⟩ := outcome
    dsimp only at sends ⊢
    rcases sends with ⟨kept, failed, lost⟩ | ⟨request, requested, sent⟩
    · refine ⟨.inl ⟨kept, failed⟩, fun narrow below reaches => ?_⟩
      obtain ⟨request, requested⟩ := writeRequest_exists register narrow below
      have unsent := lost request requested
      rw [reaches] at unsent
      contradiction
    · obtain ⟨narrow, below, encoded, rfl, _, decoded⟩ :=
        writeRequest_ok requested
      refine ⟨.inr ⟨narrow, below, encoded, decoded, sent⟩, fun _ _ _ => ?_⟩
      rw [sent]
      simp

/-- `P2=3412` writes the two bytes of register 2. -/
example : (writeRegister (fun _ => textBytes "OK") 5
    ⟨0, fun _ => .sent, [], .ok (), fun _ => ""⟩ 2 2 0x1234 ⟨[], []⟩).2.packets =
      [textBytes "P2=3412"] := by
  decide +kernel

end LibVmi.Qemu.Gdb
