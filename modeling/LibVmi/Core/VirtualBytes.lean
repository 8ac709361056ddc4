import LibVmi.Core.WriteVirtual
import LibVmi.Data.ByteMap

namespace LibVmi.Core

open Data Arch

/-- A backend that reads a range exactly when every byte of it is readable. -/
def HoldsBytes (memory : MemoryAccess) (contents : UInt64 → Option UInt8) :
    Prop :=
  ∀ address length out,
    memory.bytes address length = .ok out ↔
      readRange (atAddress contents) address.raw.toNat length = some out

/-! The smallest session over single bytes: a write whose range is not all
there changes nothing. -/

structure ByteStore where
  contents : UInt64 → Option UInt8

namespace ByteStore

def readInto (store : ByteStore) (address : Gpa) (length : Nat) :
    Result { buffer : List UInt8 // buffer.length = length } :=
  match taken : readRange (atAddress store.contents) address.raw.toNat
      length with
  | some buffer => .ok ⟨buffer, readRange_length taken⟩
  | none => .error (.readFailed address.raw length)

def write (store : ByteStore) (address : Gpa) (data : List UInt8) :
    ByteStore × Result Unit :=
  match readRange (atAddress store.contents) address.raw.toNat data.length with
  | some _ =>
      (⟨storeAll store.contents
        ((wordsFrom address.raw.toNat data.length).zip data)⟩, .ok ())
  | none => (store, .error (.backend "write leaves the memory"))

instance byteStoreSession : Session ByteStore where
  memory := fun store => .ok ⟨store.readInto⟩
  memoryWrite := fun _ => .ok ()
  write := ByteStore.write

theorem holdsBytes (store : ByteStore) :
    HoldsBytes ⟨store.readInto⟩ store.contents := by
  intro address length out
  change (store.readInto address length >>= _) = _ ↔ _
  unfold readInto
  split
  · rename_i buffer taken
    simp [taken, pure, Except.pure]
  · rename_i absent
    simp [absent]

end ByteStore

theorem pageRemaining_eq (address : UInt64) :
    pageRemaining address = .ok (4096 - address.toNat % 4096) := by
  have offsetEq : (address &&& 0xfff).toNat = address.toNat % 4096 :=
    and_low_mask_toNat address 0xfff 12 (by decide)
  unfold pageRemaining
  simp only [offsetEq]
  rw [rejectIf_neg (by omega), ok_bind, okOr_eq_ok, Usize.checkedSub_eq_some]
  omega

/-- An iteration starts at an address of the machine, and ends with its page or
with the request. -/
theorem chunkAt_eq_ok {errors : ChunkErrors} {address current : UInt64}
    {length completed chunkEnd : Nat} (unfinished : completed < length)
    (fits : length < 2 ^ 64) :
    chunkAt errors address length completed = .ok (current, chunkEnd) ↔
      current.toNat = address.toNat + completed ∧
        chunkEnd = completed +
          min (4096 - current.toNat % 4096) (length - completed) := by
  have limit : Usize.limit = 2 ^ 64 := rfl
  have completedEq : (UInt64.ofNat completed).toNat = completed :=
    UInt64.toNat_ofNat_of_lt' (by simp only [UInt64.size]; omega)
  unfold chunkAt
  simp only [bind_eq_ok, okOr_eq_ok, tryFrom_eq_some, checkedAdd_eq_some,
    pageRemaining_eq, Usize.checkedSub_eq_some, Usize.checkedAdd_eq_some,
    rejectIf_eq_ok, pure_eq_ok, Except.ok.injEq, Prod.mk.injEq,
    unsigned_toNat_uint64]
  constructor
  · intro given
    obtain ⟨progress, progressEq, start, startEq, page, rfl, remaining,
      remainingEq, stop, ⟨rfl, _⟩, _, _, rfl, rfl⟩ := given
    refine ⟨by omega, ?_⟩
    rw [show remaining = length - completed by omega]
  · intro given
    obtain ⟨currentEq, rfl⟩ := given
    refine ⟨UInt64.ofNat completed, completedEq, current, by omega, _, rfl,
      length - completed, by omega, _, ⟨rfl, by omega⟩, (), by omega, rfl, rfl⟩

theorem chunkAt_outside (errors : ChunkErrors) {address : UInt64}
    {length completed : Nat} (unfinished : completed < length)
    (fits : length < 2 ^ 64) (outside : 2 ^ 64 ≤ address.toNat + completed) :
    ∃ error, chunkAt errors address length completed = .error error := by
  cases planned : chunkAt errors address length completed with
  | error error => exact ⟨error, rfl⟩
  | ok chunk =>
      obtain ⟨current, chunkEnd⟩ := chunk
      have started := ((chunkAt_eq_ok unfinished fits).mp planned).1
      have bound := current.toNat_lt
      omega

theorem chunkAt_inside (errors : ChunkErrors) {address : UInt64}
    {length completed : Nat} (unfinished : completed < length)
    (fits : length < 2 ^ 64) (inside : address.toNat + completed < 2 ^ 64) :
    ∃ current : UInt64, current.toNat = address.toNat + completed ∧
      chunkAt errors address length completed = .ok (current, completed +
        min (4096 - current.toNat % 4096) (length - completed)) := by
  have currentEq : (UInt64.ofNat (address.toNat + completed)).toNat =
      address.toNat + completed :=
    UInt64.toNat_ofNat_of_lt' inside
  exact ⟨_, currentEq, (chunkAt_eq_ok unfinished fits).mpr ⟨currentEq, rfl⟩⟩

/-- The loop of a read without the evidence of its progress. -/
theorem readVirtualFrom_eq {τ : Type}
    (translateAt : τ → Gva → τ × Result Translation) (memory : MemoryAccess)
    (address : UInt64) (length completed : Nat) (state : τ) :
    readVirtualFrom translateAt memory address length completed state =
      if completed < length then
        match chunkAt (readErrors address length) address length completed with
        | .error error => (state, .error error)
        | .ok (current, chunkEnd) =>
            match translateAt state ⟨current⟩ with
            | (next, .error error) => (next, .error error)
            | (next, .ok translation) =>
                match memory.bytes translation.physicalAddress
                    (chunkEnd - completed) with
                | .error error => (next, .error error)
                | .ok chunk =>
                    match readVirtualFrom translateAt memory address length
                        chunkEnd next with
                    | (last, .error error) => (last, .error error)
                    | (last, .ok rest) => (last, .ok (chunk ++ rest))
      else
        (state, .ok []) := by
  rw [readVirtualFrom]
  by_cases unfinished : completed < length
  · rw [dif_pos unfinished, if_pos unfinished]
    split
    · rename_i planned
      rw [planned]
    · rename_i current chunkEnd planned
      simp only [planned]
      obtain ⟨next, result⟩ := translateAt state ⟨current⟩
      cases result with
      | error error => rfl
      | ok translation =>
          simp only [MemoryAccess.bytes]
          cases memory.readInto translation.physicalAddress
            (chunkEnd - completed) <;> rfl
  · rw [dif_neg unfinished, if_neg unfinished]

namespace VmiSession

variable {σ : Type} [Session σ]

/-- The walk of the page, moved on by the offset in it. -/
theorem translateUncached_eq_ok {session : σ} {translator : AddressTranslator}
    {root : TranslationRoot} {va : UInt64} {found : Translation} :
    translateUncached session translator root ⟨va⟩ = .ok found ↔
      ∃ value, walkPage session translator root.raw (pageBase va) = .ok value ∧
        found.physicalAddress.raw.toNat =
          value.physicalAddress.raw.toNat + va.toNat % 4096 ∧
        found.pageSize = value.pageSize := by
  obtain ⟨offset, subtracted⟩ := checkedSub_pageBase va
  have offsetEq : offset.toNat = va.toNat % 4096 := by
    have split := checkedSub_eq_some.mp subtracted
    simp only [unsigned_toNat_uint64, pageBase_toNat] at split
    omega
  unfold translateUncached
  simp only [subtracted, bind_eq_ok, offsetTranslation, okOr_eq_ok,
    checkedAdd_eq_some, unsigned_toNat_uint64, offsetEq, pure_eq_ok,
    Except.ok.injEq]
  constructor
  · intro given
    obtain ⟨value, walked, physical, physicalEq, rfl⟩ := given
    exact ⟨value, walked, physicalEq, rfl⟩
  · intro given
    obtain ⟨value, walked, physicalEq, sizeEq⟩ := given
    exact ⟨value, walked, found.physicalAddress.raw, physicalEq, by
      rw [← sizeEq]⟩

theorem pageBase_eq_of_near {current next : UInt64} {distance : Nat}
    (nextEq : next.toNat = current.toNat + distance)
    (near : current.toNat % 4096 + distance < 4096) :
    pageBase next = pageBase current ∧
      next.toNat % 4096 = current.toNat % 4096 + distance := by
  constructor
  · rw [← UInt64.toNat_inj, pageBase_toNat, pageBase_toNat]
    omega
  · omega

/-- Further on in the page the translation is that much further on. -/
theorem translateUncached_near {session : σ} {translator : AddressTranslator}
    {root : TranslationRoot} {current next : UInt64} {distance : Nat}
    {found : Translation}
    (translated : translateUncached session translator root ⟨current⟩ =
      .ok found)
    (nextEq : next.toNat = current.toNat + distance)
    (near : current.toNat % 4096 + distance < 4096) (other : Translation) :
    translateUncached session translator root ⟨next⟩ = .ok other ↔
      other.physicalAddress.raw.toNat =
          found.physicalAddress.raw.toNat + distance ∧
        other.pageSize = found.pageSize := by
  obtain ⟨value, walked, physicalEq, sizeEq⟩ :=
    translateUncached_eq_ok.mp translated
  obtain ⟨samePage, offsetEq⟩ := pageBase_eq_of_near nextEq near
  rw [translateUncached_eq_ok, samePage, walked]
  simp only [Except.ok.injEq, exists_eq_left', offsetEq, physicalEq, sizeEq,
    Nat.add_assoc]

/-- The byte that an address of a translated space shows. -/
def virtualContents (session : σ) (translator : AddressTranslator)
    (root : TranslationRoot) (contents : UInt64 → Option UInt8) (va : UInt64) :
    Option UInt8 :=
  match translateUncached session translator root ⟨va⟩ with
  | .ok found => contents found.physicalAddress.raw
  | .error _ => none

section Chunks

variable {session : σ} {translator : AddressTranslator}
  {root : TranslationRoot} {contents : UInt64 → Option UInt8}

/-- Within a page the translated space shows a run of physical memory. -/
theorem readRange_chunk {current : UInt64} {length : Nat}
    {found : Translation}
    (translated : translateUncached session translator root ⟨current⟩ =
      .ok found)
    (near : current.toNat % 4096 + length ≤ 4096) :
    readRange (atAddress (virtualContents session translator root contents))
        current.toNat length =
      readRange (atAddress contents) found.physicalAddress.raw.toNat
        length := by
  apply readRange_congr
  intro index below
  have bound := current.toNat_lt
  have nextEq : (UInt64.ofNat (current.toNat + index)).toNat =
      current.toNat + index :=
    UInt64.toNat_ofNat_of_lt' (by simp only [UInt64.size]; omega)
  have shifted := translateUncached_near translated nextEq (by omega)
  rw [atAddress_toNat _ nextEq, virtualContents]
  by_cases fits : found.physicalAddress.raw.toNat + index < 2 ^ 64
  · have physicalEq :
        (UInt64.ofNat (found.physicalAddress.raw.toNat + index)).toNat =
          found.physicalAddress.raw.toNat + index :=
      UInt64.toNat_ofNat_of_lt' fits
    rw [(shifted ⟨⟨_⟩, found.pageSize⟩).mpr ⟨physicalEq, rfl⟩]
    exact (atAddress_toNat contents physicalEq).symm
  · rw [atAddress_of_le contents (Nat.not_lt.mp fits)]
    cases moved : translateUncached session translator root
        ⟨UInt64.ofNat (current.toNat + index)⟩ with
    | error error => rfl
    | ok other =>
        have physicalEq := ((shifted other).mp moved).1
        have otherBound := other.physicalAddress.raw.toNat_lt
        omega

/-- The loop reads every byte of what is left of the request. -/
theorem readVirtualFrom_bytes {memory : MemoryAccess}
    (holds : HoldsBytes memory contents) (address : UInt64)
    {length : Nat} (fits : length < 2 ^ 64) (completed : Nat)
    (within : completed ≤ length) (out : List UInt8) :
    (readVirtualFrom (fun session current =>
          (session, translateUncached session translator root current))
        memory address length completed session).2 = .ok out ↔
      readRange (atAddress (virtualContents session translator root contents))
        (address.toNat + completed) (length - completed) = some out := by
  induction distance : length - completed using Nat.strong_induction_on
    generalizing completed out with
  | _ distance induction =>
      subst distance
      rw [readVirtualFrom_eq]
      by_cases unfinished : completed < length
      · rw [if_pos unfinished]
        by_cases inside : address.toNat + completed < 2 ^ 64
        · obtain ⟨current, currentEq, planned⟩ :=
            chunkAt_inside (readErrors address length) unfinished fits inside
          obtain ⟨chunk, chunkEq⟩ : ∃ chunk, chunk =
            min (4096 - current.toNat % 4096) (length - completed) := ⟨_, rfl⟩
          rw [planned, ← chunkEq, ← currentEq,
            show length - completed =
              chunk + (length - (completed + chunk)) by omega, readRange_add]
          simp only [Nat.add_sub_cancel_left]
          cases translated :
              translateUncached session translator root ⟨current⟩ with
          | error error =>
              have absent : atAddress (virtualContents session translator root
                  contents) current.toNat = none := by
                rw [atAddress_toNat _ rfl, virtualContents, translated]
              rw [readRange_of_none (by omega) absent]
              simp
          | ok found =>
              have physical := holds found.physicalAddress chunk
              rw [readRange_chunk translated (by omega)]
              simp only
              cases read : memory.bytes found.physicalAddress
                  chunk with
              | error error =>
                  cases range : readRange (atAddress contents)
                      found.physicalAddress.raw.toNat chunk with
                  | none => simp
                  | some bytes =>
                      have refused := (physical bytes).mpr range
                      rw [read] at refused
                      contradiction
              | ok bytes =>
                  rw [(physical bytes).mp read, currentEq, Nat.add_assoc]
                  have rest := fun out =>
                    induction (length - (completed + chunk)) (by omega)
                      (completed + chunk) (by omega) out rfl
                  revert rest
                  generalize readVirtualFrom (fun session current => (session,
                      translateUncached session translator root current))
                    memory address length (completed + chunk) session = tail
                  generalize readRange (atAddress (virtualContents session
                      translator root contents))
                    (address.toNat + (completed + chunk))
                    (length - (completed + chunk)) = range
                  intro rest
                  obtain ⟨last, result⟩ := tail
                  cases result with
                  | ok tail => simp [(rest tail).mp rfl]
                  | error error =>
                      cases range with
                      | none => simp
                      | some tail => cases (rest tail).mpr rfl
        · obtain ⟨error, failed⟩ :=
            chunkAt_outside (readErrors address length) unfinished
              fits (Nat.not_lt.mp inside)
          rw [failed, readRange_of_none (by omega)
            (atAddress_of_le _ (Nat.not_lt.mp inside))]
          simp
      · rw [if_neg unfinished, show length - completed = 0 by omega, readRange,
          Except.ok.injEq, Option.some.injEq]

end Chunks

/-- A read over a cache whose entries are walks of the current memory shows the
translated space byte by byte, and leaves such a cache. -/
theorem readVirtual_bytes {self : VmiSession σ}
    {translator : AddressTranslator} {root : TranslationRoot}
    (entries : EntriesFrom self.session translator root self)
    {memory : MemoryAccess} (exposed : Session.memory self.session = .ok memory)
    {contents : UInt64 → Option UInt8} (holds : HoldsBytes memory contents)
    (address : Gva) {length : Nat} (room : length < 2 ^ 63) :
    (EntriesFrom self.session translator root
        (self.readVirtual translator root address length).1 ∧
      (self.readVirtual translator root address length).1.session =
        self.session) ∧
      ∀ out, (self.readVirtual translator root address length).2 = .ok out ↔
        readRange (atAddress
            (virtualContents self.session translator root contents))
          address.raw.toNat length = some out := by
  have reserved : reserveVirtual length = .ok () :=
    tryReserveExact_eq_ok.mpr room
  unfold readVirtual
  rw [reserved, exposed]
  have loops := readVirtualFrom_simulates
    (fun self current => self.translate translator root current)
    (fun session current =>
      (session, translateUncached session translator root current))
    (fun (left : VmiSession σ) session =>
      (EntriesFrom self.session translator root left ∧
        left.session = self.session) ∧ session = self.session)
    (by
      intro left session current given
      obtain ⟨⟨leftEntries, sameSession⟩, rfl⟩ := given
      have step := leftEntries.translate current (by rw [sameSession])
      rw [sameSession] at step
      exact ⟨⟨⟨step.1, by rw [translate_session, sameSession]⟩, rfl⟩, step.2⟩)
    memory address.raw length 0 ⟨⟨entries, rfl⟩, rfl⟩
  refine ⟨loops.1.1, ?_⟩
  intro out
  rw [loops.2]
  exact readVirtualFrom_bytes holds address.raw (by omega) 0
    (Nat.zero_le length) out

theorem Coherent.entriesFrom {translators : Set AddressTranslator}
    {self : VmiSession σ} (coherent : Coherent translators self)
    {translator : AddressTranslator} (known : translator ∈ translators)
    (root : TranslationRoot) :
    EntriesFrom self.session translator root self := by
  intro page value found
  exact (coherent _ _ _ value found).2 translator known rfl

/-- The address translates, and the byte there is readable. -/
def ShowsByte (self : VmiSession σ) (translator : AddressTranslator)
    (root : TranslationRoot) (contents : UInt64 → Option UInt8)
    (address : Nat) (byte : UInt8) : Prop :=
  ∃ (current : UInt64) (found : Translation), current.toNat = address ∧
    (self.translate translator root ⟨current⟩).2 = .ok found ∧
    contents found.physicalAddress.raw = some byte

theorem showsByte_iff {self : VmiSession σ} {translator : AddressTranslator}
    {root : TranslationRoot}
    (entries : EntriesFrom self.session translator root self)
    {contents : UInt64 → Option UInt8} {address : Nat} {byte : UInt8} :
    self.ShowsByte translator root contents address byte ↔
      atAddress (virtualContents self.session translator root contents)
        address = some byte := by
  rw [atAddress_eq_some]
  apply exists_congr
  intro current
  rw [exists_and_left, and_congr_right_iff]
  intro _
  rw [(entries.translate ⟨current⟩ rfl).2, virtualContents]
  cases translateUncached self.session translator root ⟨current⟩ <;> simp

/-- No buffer is past the largest allocation. -/
theorem readVirtual_unreserved (self : VmiSession σ)
    (translator : AddressTranslator) (root : TranslationRoot) (address : Gva)
    {length : Nat} (large : 2 ^ 63 ≤ length) :
    ∃ message, self.readVirtual translator root address length =
      (self, .error (.backend message)) := by
  obtain ⟨message, refused⟩ := tryReserveExact_error
    s!"failed to allocate {length}-byte virtual read buffer" large
  refine ⟨message, ?_⟩
  unfold readVirtual reserveVirtual
  rw [refused]

/-- A virtual read is the bytewise one, wherever its pages begin and end, and a
range can be read in parts, as far as there is room for its buffer. -/
theorem read_virtual_bytewise {translators : Set AddressTranslator}
    {self : VmiSession σ} (coherent : Coherent translators self)
    {translator : AddressTranslator} (known : translator ∈ translators)
    (root : TranslationRoot) {memory : MemoryAccess}
    (exposed : Session.memory self.session = .ok memory)
    {contents : UInt64 → Option UInt8} (holds : HoldsBytes memory contents)
    (address : Gva) (length : Nat) :
    ((∃ out, (self.readVirtual translator root address length).2 = .ok out) ↔
      length < 2 ^ 63 ∧ ∀ index < length, ∃ byte,
        self.ShowsByte translator root contents (address.raw.toNat + index)
          byte) ∧
    (∀ out, (self.readVirtual translator root address length).2 = .ok out →
      out.length = length ∧ ∀ index byte, out[index]? = some byte →
        self.ShowsByte translator root contents (address.raw.toNat + index)
          byte) ∧
    (2 ^ 63 ≤ length → ∃ message,
      (self.readVirtual translator root address length).2 =
        .error (.backend message)) ∧
    (length < 2 ^ 63 → ∀ first second (middle : UInt64),
      first + second = length →
      middle.toNat = address.raw.toNat + first → ∀ out,
        (self.readVirtual translator root address length).2 = .ok out ↔
          ∃ left right,
            (self.readVirtual translator root address first).2 = .ok left ∧
            ((self.readVirtual translator root address first).1.readVirtual
              translator root ⟨middle⟩ second).2 = .ok right ∧
            out = left ++ right) := by
  have entries := coherent.entriesFrom known root
  by_cases room : length < 2 ^ 63
  swap
  · obtain ⟨message, refused⟩ :=
      self.readVirtual_unreserved translator root address (Nat.not_lt.mp room)
    rw [refused]
    refine ⟨?_, nofun, fun _ => ⟨message, rfl⟩, fun small => absurd small room⟩
    exact iff_of_false (fun read => by cases read.choose_spec)
      (fun given => room given.1)
  obtain ⟨_, whole⟩ := readVirtual_bytes entries exposed holds address room
  refine ⟨?_, ?_, fun large => absurd room (Nat.not_lt.mpr large), fun _ => ?_⟩
  · simp only [whole, readRange_exists_iff, showsByte_iff entries, room,
      true_and]
  · intro out read
    obtain ⟨lengthEq, each⟩ := readRange_eq_some.mp ((whole out).mp read)
    refine ⟨lengthEq, ?_⟩
    intro index byte held
    have below : index < out.length := (List.getElem?_eq_some_iff.mp held).1
    rw [showsByte_iff entries, each index (by omega)]
    exact held
  · intro first second middle sum middleEq out
    subst sum
    obtain ⟨⟨nextEntries, sameSession⟩, firstPart⟩ := readVirtual_bytes entries
      exposed holds address (show first < 2 ^ 63 by omega)
    rw [← sameSession] at nextEntries
    obtain ⟨_, secondPart⟩ := readVirtual_bytes nextEntries
      (by rw [sameSession]; exact exposed) holds ⟨middle⟩
      (show second < 2 ^ 63 by omega)
    rw [sameSession] at secondPart
    simp only [whole, firstPart, secondPart, readRange_add, middleEq,
      Option.bind_eq_bind, Option.bind_eq_some_iff, Option.pure_def,
      Option.some.injEq, exists_and_left]
    constructor
    · intro given
      obtain ⟨left, leftRead, right, rightRead, rfl⟩ := given
      exact ⟨left, leftRead, right, rightRead, rfl⟩
    · intro given
      obtain ⟨left, leftRead, right, rightRead, rfl⟩ := given
      exact ⟨left, leftRead, right, rightRead, rfl⟩

/-- One frame of which two bytes are there, the first of them its table. -/
def twoBytes : ByteStore :=
  ⟨fun address =>
    if address = 0 then some 0 else if address = 0xfff then some 9 else none⟩

theorem read_virtual_bytewise_last_byte :
    let self : VmiSession ByteStore := ⟨twoBytes, ⟨4096, ∅, []⟩⟩
    (self.readVirtual singleFrame ⟨0⟩ ⟨0xffffffffffffffff⟩ 1).2 = .ok [9] ∧
      self.ShowsByte singleFrame ⟨0⟩ twoBytes.contents (2 ^ 64 - 1) 9 := by
  intro self
  have attached : attach twoBytes = .ok self := rfl
  have read : (self.readVirtual singleFrame ⟨0⟩ ⟨0xffffffffffffffff⟩ 1).2 =
      .ok [9] := by
    decide +kernel
  have general := read_virtual_bytewise (coherent_attach {singleFrame} attached)
    rfl ⟨0⟩ rfl twoBytes.holdsBytes ⟨0xffffffffffffffff⟩ 1
  exact ⟨read, (general.2.1 _ read).2 0 9 rfl⟩

/-- A store in which every byte is there. -/
def everyByte : ByteStore :=
  ⟨fun _ => some 0⟩

theorem everyByte_shown {address : Nat} (inside : address < 2 ^ 64) :
    (⟨everyByte, ⟨4096, ∅, []⟩⟩ : VmiSession ByteStore).ShowsByte singleFrame
      ⟨0⟩ everyByte.contents address 0 := by
  have entries := (coherent_attach {singleFrame}
    (rfl : attach everyByte = .ok ⟨everyByte, ⟨4096, ∅, []⟩⟩)).entriesFrom
      rfl ⟨0⟩
  obtain ⟨va, vaEq⟩ : ∃ va : UInt64, va.toNat = address :=
    ⟨UInt64.ofNat address, UInt64.toNat_ofNat_of_lt' inside⟩
  have frame : (0 * 4096 + (pageBase va &&& 0xfff)).toNat = 0 := by
    rw [UInt64.zero_mul, UInt64.zero_add,
      and_low_mask_toNat _ 0xfff 12 (by decide), pageBase_toNat]
    omega
  have translated : translateUncached everyByte singleFrame ⟨0⟩ ⟨va⟩ =
      .ok ⟨⟨UInt64.ofNat (va.toNat % 4096)⟩, 4096⟩ := by
    refine translateUncached_eq_ok.mpr ⟨_, rfl, ?_, rfl⟩
    rw [UInt64.toNat_ofNat_of_lt' (by simp only [UInt64.size]; omega)]
    exact (Nat.zero_add _).symm.trans (congrArg (· + va.toNat % 4096) frame.symm)
  rw [showsByte_iff entries, atAddress_eq_some]
  refine ⟨va, vaEq, ?_⟩
  rw [virtualContents, translated]
  rfl

/-- Half the address space is too long for a buffer, though every byte of it
can be read. -/
theorem half_space_refused :
    let self : VmiSession ByteStore := ⟨everyByte, ⟨4096, ∅, []⟩⟩
    (∀ index < 2 ^ 63, ∃ byte, self.ShowsByte singleFrame ⟨0⟩
        everyByte.contents (0 + index) byte) ∧
      ¬ ∃ out,
        (self.readVirtual singleFrame ⟨0⟩ ⟨0⟩ (2 ^ 63)).2 = .ok out := by
  intro self
  constructor
  · intro index below
    exact ⟨0, everyByte_shown (by omega)⟩
  · intro read
    obtain ⟨message, refused⟩ :=
      self.readVirtual_unreserved singleFrame ⟨0⟩ ⟨0⟩ (Nat.le_refl (2 ^ 63))
    rw [refused] at read
    cases read.choose_spec

end VmiSession

end LibVmi.Core
