import LibVmi.Data.LossyUtf8
import LibVmi.Os.Guest

namespace LibVmi.Os

open Data

/-! What the introspectors make of the bytes of a guest's text. Each round of
the decoder checks what is left as if it were a text of its own. -/

/-- What a round does with what is left from the offset on. -/
inductive Decodes (bytes : List UInt8) (description : String) (offset : Nat)
    (output : String) : Prop
  | valid (chars : List Char)
      (remaining : bytes.drop offset = chars.flatMap String.utf8EncodeChar)
      (round : decodeRound bytes description offset output =
        .ok (output ++ String.ofList chars, none))
  | truncated (chars : List Char) {subpart : List UInt8}
      (illFormed : MaximalSubpart subpart [])
      (remaining : bytes.drop offset =
        chars.flatMap String.utf8EncodeChar ++ subpart)
      (round : decodeRound bytes description offset output =
        .ok ((output ++ String.ofList chars).push '\uFFFD', none))
  | replaced (chars : List Char) {subpart : List UInt8} {next : Nat}
      (illFormed : MaximalSubpart subpart (bytes.drop next))
      (within : next ≤ bytes.length)
      (remaining : bytes.drop offset =
        chars.flatMap String.utf8EncodeChar ++ (subpart ++ bytes.drop next))
      (round : decodeRound bytes description offset output =
        .ok ((output ++ String.ofList chars).push '\uFFFD', some next))

theorem decodes {bytes : List UInt8} (fits : bytes.length < 2 ^ 64)
    (description : String) {offset : Nat} (within : offset ≤ bytes.length)
    (output : String) : Decodes bytes description offset output := by
  have whole : slice bytes offset bytes.length = some (bytes.drop offset) := by
    unfold slice
    rw [if_pos ⟨within, Nat.le_refl _⟩, List.take_of_length_le]
    rw [List.length_drop]
  cases checked : utf8Chars 0 (bytes.drop offset) with
  | ok chars =>
      apply Decodes.valid chars (utf8Chars_ok checked)
      unfold decodeRound
      simp only [whole, okOr_some, ok_bind, fromUtf8, checked, Except.map]
      rfl
  | error error =>
      obtain ⟨chars, subpart, rest, splits, illFormed, upTo, measured⟩ :=
        utf8Chars_stops checked
      rw [Nat.zero_add] at upTo
      have before : slice (bytes.drop offset) 0 error.validUpTo =
          some (chars.flatMap String.utf8EncodeChar) := by
        rw [slice_eq_some]
        refine ⟨[], subpart ++ rest, splits, rfl, ?_⟩
        rw [upTo, Nat.zero_add]
      have lengths := congrArg List.length splits
      rw [List.length_drop, List.length_append, List.length_append] at lengths
      rcases measured with some | ⟨none, rfl⟩
      · have rest' : bytes.drop (offset + error.validUpTo + subpart.length) =
            rest := by
          rw [Nat.add_assoc, ← List.drop_drop, splits, ← List.append_assoc]
          apply List.drop_left'
          rw [List.length_append, upTo]
        subst rest'
        apply Decodes.replaced chars illFormed (by omega) splits
        unfold decodeRound
        simp only [whole, okOr_some, ok_bind, fromUtf8, checked, Except.map,
          before, utf8Chars_encode, Except.mapError, some]
        rw [Usize.checkedAdd, if_pos (by change _ < 2 ^ 64; omega),
          Option.bind_some, Usize.checkedAdd,
          if_pos (by change _ < 2 ^ 64; omega)]
        rfl
      · rw [List.append_nil] at splits
        apply Decodes.truncated chars illFormed splits
        unfold decodeRound
        simp only [whole, okOr_some, ok_bind, fromUtf8, checked, Except.map,
          before, utf8Chars_encode, Except.mapError, none]
        rfl

theorem decodeFrom_done {bytes : List UInt8} {description : String}
    {offset : Nat} {output text : String} (more : offset < bytes.length)
    (round : decodeRound bytes description offset output = .ok (text, none)) :
    decodeFrom bytes description offset output = .ok text := by
  rw [decodeFrom, if_pos more]
  split
  · rename_i failed
    rw [round] at failed
    contradiction
  · rename_i finished
    rw [round] at finished
    cases finished
    rfl
  · rename_i onward
    rw [round] at onward
    cases onward

theorem decodeFrom_onward {bytes : List UInt8} {description : String}
    {offset next : Nat} {output text : String} (more : offset < bytes.length)
    (round : decodeRound bytes description offset output =
      .ok (text, some next)) :
    decodeFrom bytes description offset output =
      decodeFrom bytes description next text := by
  rw [decodeFrom, if_pos more]
  split
  · rename_i failed
    rw [round] at failed
    contradiction
  · rename_i finished
    rw [round] at finished
    cases finished
  · rename_i onward
    rw [round] at onward
    cases onward
    rfl

/-- The rounds together are the lossy reading of what is left. -/
theorem decodeFrom_lossy {bytes : List UInt8} (fits : bytes.length < 2 ^ 64)
    (description : String) {offset : Nat} (within : offset ≤ bytes.length)
    (output : String) :
    decodeFrom bytes description offset output =
      .ok (output ++ fromUtf8Lossy (bytes.drop offset)) := by
  induction distance : bytes.length - offset using Nat.strong_induction_on
    generalizing offset output with
  | _ distance induction =>
      subst distance
      by_cases more : offset < bytes.length
      · cases decodes fits description within output with
        | valid chars remaining round =>
            have lossy := LossyUtf8.kept chars
            rw [← remaining] at lossy
            rw [decodeFrom_done more round, fromUtf8Lossy, lossyChars_eq lossy]
        | truncated chars illFormed remaining round =>
            have lossy := LossyUtf8.append chars (.replace illFormed .done)
            rw [List.append_nil, ← remaining] at lossy
            rw [decodeFrom_done more round, fromUtf8Lossy, lossyChars_eq lossy]
            apply congrArg Except.ok
            apply String.toList_injective
            simp
        | @replaced chars subpart next illFormed reached remaining round =>
            have lossy := LossyUtf8.append chars (.replace illFormed
              (lossyChars_lossy (bytes.drop next)))
            rw [← remaining] at lossy
            have progress := decodeRound_progress round
            rw [decodeFrom_onward more round,
              induction (bytes.length - next) (by omega) reached _ rfl,
              fromUtf8Lossy, fromUtf8Lossy, lossyChars_eq lossy]
            apply congrArg Except.ok
            apply String.toList_injective
            simp
      · have finished : bytes.drop offset = [] :=
          List.drop_eq_nil_iff.mpr (Nat.not_lt.mp more)
        rw [decodeFrom, if_neg more, finished, fromUtf8Lossy, lossyChars]
        exact congrArg Except.ok String.append_empty.symm

theorem fromUtf8Lossy_size (bytes : List UInt8) :
    (fromUtf8Lossy bytes).utf8ByteSize ≤ 3 * bytes.length := by
  have bound := (lossyChars_lossy bytes).size_le
  rw [fromUtf8Lossy]
  simpa [← String.size_toByteArray, List.utf8Encode] using bound

theorem reserveDecoded_ok_iff {units : Nat} {description : String} :
    reserveDecoded units description = .ok () ↔ 3 * units < 2 ^ 63 := by
  unfold reserveDecoded
  simp only [bind_eq_ok, okOr_eq_ok, Usize.checkedMul_eq_some, rejectIf_eq_ok]
  constructor
  · rintro ⟨capacity, ⟨rfl, _⟩, fits⟩
    omega
  · intro fits
    refine ⟨units * 3, ⟨rfl, ?_⟩, by omega⟩
    change _ < 2 ^ 64
    omega

/-- Every byte string is decoded as the one lossy reading of it. Only one that
is ill-formed, and so long that room for its text cannot be reserved, is refused
for that reason. -/
theorem decodeGuestBytes_lossy (bytes : List UInt8) (description : String) :
    (LossyUtf8 bytes (fromUtf8Lossy bytes).toList ∧
      ∀ chars, LossyUtf8 bytes chars → chars = (fromUtf8Lossy bytes).toList) ∧
    (fromUtf8Lossy bytes).utf8ByteSize ≤ 3 * bytes.length ∧
    (decodeGuestBytes bytes description = .ok (fromUtf8Lossy bytes) ∨
      2 ^ 63 ≤ 3 * bytes.length ∧
        (¬ ∃ chars : List Char, bytes = chars.flatMap String.utf8EncodeChar) ∧
        ∃ error, reserveDecoded bytes.length description = .error error ∧
          decodeGuestBytes bytes description = .error error) := by
  have lossy := lossyChars_lossy bytes
  refine ⟨?_, fromUtf8Lossy_size bytes, ?_⟩
  · rw [fromUtf8Lossy, String.toList_ofList]
    exact ⟨lossy, fun chars other => other.unique lossy⟩
  · unfold decodeGuestBytes fromUtf8
    cases checked : utf8Chars 0 bytes with
    | ok chars =>
        have kept := LossyUtf8.kept chars
        rw [← utf8Chars_ok checked] at kept
        left
        rw [fromUtf8Lossy, lossyChars_eq kept]
        rfl
    | error error =>
        simp only [Except.map]
        cases reserved : reserveDecoded bytes.length description with
        | ok =>
            have fits := reserveDecoded_ok_iff.mp reserved
            left
            rw [ok_bind, decodeFrom_lossy (by omega) description
              (Nat.zero_le _), List.drop_zero, String.empty_append]
        | error refusal =>
            right
            refine ⟨?_, ?_, refusal, rfl, rfl⟩
            · by_contra fits
              rw [reserveDecoded_ok_iff.mpr (Nat.not_le.mp fits)] at reserved
              contradiction
            · rintro ⟨chars, rfl⟩
              rw [utf8Chars_encode] at checked
              contradiction

end LibVmi.Os
