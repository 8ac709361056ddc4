import LibVmi.Core.Coherence
import LibVmi.Data.Circle
import LibVmi.Data.Unicode

namespace LibVmi.Os

open Data Arch LibVmi.Core

/-! What both introspectors do with a guest: they read its virtual memory
through a session, and decode the text they find there. -/

/-- There are finitely many guest addresses. -/
instance finiteUInt64 : Finite UInt64 :=
  Finite.of_injective UInt64.toFin fun _ _ same => UInt64.toFin_inj.mp same

section Reads

variable {σ : Type} [Session σ] {translators : Set AddressTranslator}

theorem readVirtual_session (self : VmiSession σ)
    (translator : AddressTranslator) (root : TranslationRoot) (address : Gva)
    (length : Nat) :
    (self.readVirtual translator root address length).1.session =
      self.session := by
  unfold VmiSession.readVirtual
  cases VmiSession.reserveVirtual length with
  | error error => rfl
  | ok room =>
      cases Session.memory self.session with
      | error error => rfl
      | ok memory =>
          have kept := (readVirtualFrom_simulates
            (fun self current => VmiSession.translate self translator root current)
            (fun self current => VmiSession.translate self translator root current)
            (fun left right => left = right ∧ left.session = self.session)
            (by
              intro left right current given
              obtain ⟨rfl, same⟩ := given
              exact ⟨⟨rfl, by rw [VmiSession.translate_session, same]⟩, rfl⟩)
            memory address.raw length 0 ⟨rfl, rfl⟩).1
          exact kept.2

theorem readVirtualFrom_length {τ : Type}
    (translateAt : τ → Gva → τ × Result Translation) (memory : MemoryAccess)
    (address : UInt64) {length completed : Nat} (within : completed ≤ length)
    {state : τ} {bytes : List UInt8}
    (read : (readVirtualFrom translateAt memory address length completed
      state).2 = .ok bytes) :
    bytes.length = length - completed := by
  induction distance : length - completed using Nat.strong_induction_on
    generalizing completed state bytes with
  | _ distance induction =>
      subst distance
      rw [readVirtualFrom] at read
      split at read
      · rename_i unfinished
        split at read
        · contradiction
        · rename_i current chunkEnd planned
          obtain ⟨more, least⟩ := chunkAt_progress unfinished planned
          split at read
          · contradiction
          · split at read
            · contradiction
            · rename_i chunk _
              split at read
              · contradiction
              · rename_i rest continued
                cases read
                have tail := induction (length - chunkEnd) (by omega) least
                  (congrArg Prod.snd continued) rfl
                rw [List.length_append, chunk.property, tail]
                omega
      · cases read
        rw [List.length_nil]
        omega

/-- A read that succeeds is never short. -/
theorem readVirtual_length {self : VmiSession σ}
    {translator : AddressTranslator} {root : TranslationRoot} {address : Gva}
    {length : Nat} {bytes : List UInt8}
    (read : (self.readVirtual translator root address length).2 = .ok bytes) :
    bytes.length = length := by
  unfold VmiSession.readVirtual at read
  cases reserved : VmiSession.reserveVirtual length with
  | error error =>
      rw [reserved] at read
      contradiction
  | ok room =>
      rw [reserved] at read
      cases exposed : Session.memory self.session with
      | error error =>
          rw [exposed] at read
          contradiction
      | ok memory =>
          rw [exposed] at read
          exact readVirtualFrom_length _ memory address.raw
            (Nat.zero_le length) read

/-- Reads leave every later read as it would have been without them, so what a
session answers is a function of the address and the length. -/
theorem readVirtual_steady (sound : VmiSession.TagsSound translators)
    {self : VmiSession σ} (coherent : VmiSession.Coherent translators self)
    (reads : List (AddressTranslator × TranslationRoot × Gva × Nat))
    (known : ∀ read ∈ reads, read.1 ∈ translators) :
    let after := reads.foldl (fun self read =>
      (VmiSession.readVirtual self read.1 read.2.1 read.2.2.1 read.2.2.2).1) self
    ∀ translator ∈ translators, ∀ root address length,
      (after.readVirtual translator root address length).2 =
        (self.readVirtual translator root address length).2 := by
  induction reads generalizing self with
  | nil =>
      intro after translator _ root address length
      rfl
  | cons read rest induction =>
      intro after translator inSet root address length
      rw [List.forall_mem_cons] at known
      have next := VmiSession.readVirtual_uncached sound coherent known.1
        read.2.1 read.2.2.1 read.2.2.2
      have later := induction next.1 known.2 translator inSet root address length
      refine later.trans ?_
      rw [(VmiSession.readVirtual_uncached sound next.1 inSet root address
          length).2,
        (VmiSession.readVirtual_uncached sound coherent inSet root address
          length).2, readVirtual_session]

end Reads

/-! Decoded text. Both introspectors have their own copy of these functions. -/

/-- The bytes before the first zero. -/
def truncateAtZero (bytes : List UInt8) : List UInt8 :=
  bytes.take ((bytes.findIdx? (· == 0)).getD bytes.length)

/-- One round of the decoder: what it has written, and the offset it goes on at
unless it is done. -/
def decodeRound (bytes : List UInt8) (description : String) (offset : Nat)
    (output : String) : Result (String × Option Nat) := do
  let remaining ← okOr (slice bytes offset bytes.length)
    (.backend s!"{description} decoder offset is out of bounds")
  match fromUtf8 remaining with
  | .ok valid => return (output ++ valid, none)
  | .error error => do
      let valid ← okOr (slice remaining 0 error.validUpTo)
        (.backend s!"{description} valid prefix is out of bounds")
      let valid ← (fromUtf8 valid).mapError fun error =>
        .backend s!"{description} valid prefix failed: {error.display}"
      let output := (output ++ valid).push '\uFFFD'
      match error.errorLen with
      | none => return (output, none)
      | some errorLength => do
          let offset ← okOr
            ((Usize.checkedAdd offset error.validUpTo).bind
              (Usize.checkedAdd · errorLength))
            (.backend s!"{description} decoder progress overflow")
          return (output, some offset)

theorem decodeRound_progress {bytes : List UInt8} {description : String}
    {offset next : Nat} {output text : String}
    (decoded : decodeRound bytes description offset output =
      .ok (text, some next)) : offset < next := by
  unfold decodeRound at decoded
  obtain ⟨remaining, _, decoded⟩ := bind_eq_ok.mp decoded
  cases checked : fromUtf8 remaining with
  | ok valid =>
      rw [checked] at decoded
      cases decoded
  | error error =>
      simp only [checked] at decoded
      obtain ⟨_, _, decoded⟩ := bind_eq_ok.mp decoded
      obtain ⟨_, _, decoded⟩ := bind_eq_ok.mp decoded
      cases measured : error.errorLen with
      | none =>
          rw [measured] at decoded
          cases decoded
      | some errorLength =>
          simp only [measured] at decoded
          obtain ⟨stop, stopEq, decoded⟩ := bind_eq_ok.mp decoded
          cases decoded
          obtain ⟨middle, middleEq, added⟩ :=
            Option.bind_eq_some_iff.mp (okOr_eq_ok.mp stopEq)
          rw [Usize.checkedAdd_eq_some] at middleEq added
          have positive := fromUtf8_error checked measured
          omega

def decodeFrom (bytes : List UInt8) (description : String) (offset : Nat)
    (output : String) : Result String :=
  if offset < bytes.length then
    match decoded : decodeRound bytes description offset output with
    | .error error => .error error
    | .ok (output, none) => .ok output
    | .ok (output, some next) =>
        have := decodeRound_progress decoded
        decodeFrom bytes description next output
  else
    .ok output
termination_by bytes.length - offset

/-- Room for three bytes a unit. -/
def reserveDecoded (units : Nat) (description : String) : Result Unit := do
  let capacity ← okOr (Usize.checkedMul units 3)
    (.backend s!"{description} decoded length overflow")
  rejectIf (2 ^ 63 ≤ capacity)
    (.backend (s!"failed to allocate decoded {description}: memory allocation " ++
      "failed because the computed capacity exceeded the collection's maximum"))

def decodeGuestBytes (bytes : List UInt8) (description : String) :
    Result String :=
  match fromUtf8 bytes with
  | .ok text => .ok text
  | .error _ => do
      reserveDecoded bytes.length description
      decodeFrom bytes description 0 ""

theorem decodeRound_writes {bytes : List UInt8} {description : String}
    {offset : Nat} {output text : String} {onward : Option Nat}
    (decoded : decodeRound bytes description offset output =
      .ok (text, onward)) :
    ∃ written, text = output ++ written := by
  unfold decodeRound at decoded
  obtain ⟨remaining, _, decoded⟩ := bind_eq_ok.mp decoded
  cases checked : fromUtf8 remaining with
  | ok valid =>
      rw [checked] at decoded
      cases decoded
      exact ⟨valid, rfl⟩
  | error error =>
      simp only [checked] at decoded
      obtain ⟨_, _, decoded⟩ := bind_eq_ok.mp decoded
      obtain ⟨valid, _, decoded⟩ := bind_eq_ok.mp decoded
      have pushed : (output ++ valid).push '\uFFFD' =
          output ++ valid.push '\uFFFD' := by
        apply String.toList_injective
        simp
      rw [pushed] at decoded
      cases measured : error.errorLen with
      | none =>
          rw [measured] at decoded
          cases decoded
          exact ⟨_, rfl⟩
      | some errorLength =>
          simp only [measured] at decoded
          obtain ⟨_, _, decoded⟩ := bind_eq_ok.mp decoded
          cases decoded
          exact ⟨_, rfl⟩

/-- The loop only adds to what it has written. -/
theorem decodeFrom_writes {bytes : List UInt8} {description : String}
    {offset : Nat} {output text : String}
    (decoded : decodeFrom bytes description offset output = .ok text) :
    ∃ written, text = output ++ written := by
  induction distance : bytes.length - offset using Nat.strong_induction_on
    generalizing offset output with
  | _ distance induction =>
      subst distance
      rw [decodeFrom] at decoded
      split at decoded
      · split at decoded
        · contradiction
        · rename_i round
          cases decoded
          exact decodeRound_writes round
        · rename_i middle next round
          have progress := decodeRound_progress round
          obtain ⟨first, rfl⟩ := decodeRound_writes round
          obtain ⟨rest, rfl⟩ :=
            induction (bytes.length - next) (by omega) decoded rfl
          exact ⟨first ++ rest, String.append_assoc⟩
      · cases decoded
        exact ⟨"", String.append_empty.symm⟩

/-- Bytes are never decoded to an empty text. -/
theorem decodeGuestBytes_empty {bytes : List UInt8} {description : String}
    (decoded : decodeGuestBytes bytes description = .ok "") : bytes = [] := by
  unfold decodeGuestBytes at decoded
  cases checked : fromUtf8 bytes with
  | ok text =>
      rw [checked] at decoded
      cases decoded
      exact fromUtf8_empty checked
  | error error =>
      simp only [checked] at decoded
      obtain ⟨_, _, decoded⟩ := bind_eq_ok.mp decoded
      by_contra nonempty
      have positive := List.length_pos_of_ne_nil nonempty
      -- The first round of the loop comes upon the same error and replaces it.
      have whole : slice bytes 0 bytes.length = some bytes := by
        unfold slice
        rw [if_pos ⟨Nat.zero_le _, Nat.le_refl _⟩]
        simp
      have replaced : ∀ text onward, decodeRound bytes description 0 "" =
          .ok (text, onward) → text ≠ "" := by
        intro text onward round
        unfold decodeRound at round
        simp only [whole, okOr_some, ok_bind, checked] at round
        obtain ⟨_, _, round⟩ := bind_eq_ok.mp round
        obtain ⟨valid, _, round⟩ := bind_eq_ok.mp round
        cases measured : error.errorLen with
        | none =>
            rw [measured] at round
            cases round
            exact String.push_ne_empty
        | some errorLength =>
            simp only [measured] at round
            obtain ⟨_, _, round⟩ := bind_eq_ok.mp round
            cases round
            exact String.push_ne_empty
      rw [decodeFrom, if_pos positive] at decoded
      split at decoded
      · contradiction
      · rename_i round
        cases decoded
        exact replaced _ _ round rfl
      · rename_i round
        obtain ⟨written, same⟩ := decodeFrom_writes decoded
        exact replaced _ _ round (String.append_eq_empty_iff.mp same.symm).1

def decodeUtf16Words (words : List UInt16) (description : String) :
    Result String := do
  reserveDecoded words.length description
  match decodeUtf16 words with
  | .ok chars => return String.ofList chars
  | .error unit =>
      let digits := String.ofList (Nat.toDigits 16 unit.toNat)
      .error (.backend
        s!"invalid {description}: unpaired surrogate found: {digits}")

example : decodeGuestBytes [0xf0, 0x28, 0x8c, 0x28] "test" =
    .ok "\uFFFD(\uFFFD(" := by
  decide +kernel

end LibVmi.Os
