import LibVmi.Arch.Mapping
import LibVmi.Core.TranslationCache

namespace LibVmi.Core

open Data Arch

/-- The cache sits behind a lock that no call leaves poisoned, so a single
caller sees it as part of the session's state. -/
structure VmiSession (σ : Type) where
  session : σ
  translations : TranslationCache

def pageRemaining (address : UInt64) : Result Nat := do
  let offset := (address &&& 0xfff).toNat
  rejectIf (2 ^ 16 ≤ offset) (.backend "page offset overflow")
  okOr (Usize.checkedSub 4096 offset)
    (.backend "page offset exceeds page size")

def offsetTranslation (translation : Translation) (pageOffset : UInt64)
    (address : Gva) : Result Translation := do
  let physical ← okOr
    (checkedAdd translation.physicalAddress.raw pageOffset)
    (.readFailed address.raw 1)
  return ⟨⟨physical⟩, translation.pageSize⟩

/-! One iteration of the virtual loops: the address it starts at and where it
ends. Reads and writes differ in the errors of the steps that cannot fail. -/

structure ChunkErrors where
  remaining : VmiError
  overflow : VmiError
  outOfBounds : VmiError

def chunkAt (errors : ChunkErrors) (address : UInt64) (length completed : Nat) :
    Result (UInt64 × Nat) := do
  let completedAddress : UInt64 ← okOr (tryFrom completed)
    (.readFailed address length)
  let current ← okOr (checkedAdd address completedAddress)
    (.readFailed address length)
  let page ← pageRemaining current
  let remaining ← okOr (Usize.checkedSub length completed) errors.remaining
  let chunkEnd ← okOr (Usize.checkedAdd completed (min page remaining))
    errors.overflow
  rejectIf (length < chunkEnd) errors.outOfBounds
  return (current, chunkEnd)

def readErrors (address : UInt64) (length : Nat) : ChunkErrors where
  remaining := .readFailed address length
  overflow := .backend "virtual read chunk overflow"
  outOfBounds := .backend "virtual read chunk is out of bounds"

def writeErrors : ChunkErrors where
  remaining := .backend "virtual write progress exceeds input length"
  overflow := .backend "virtual write chunk overflow"
  outOfBounds := .backend "virtual write chunk is out of bounds"

theorem pageRemaining_positive {address : UInt64} {page : Nat}
    (computed : pageRemaining address = .ok page) : 0 < page := by
  unfold pageRemaining at computed
  obtain ⟨_, _, computed⟩ := bind_eq_ok.mp computed
  rw [okOr_eq_ok, Usize.checkedSub_eq_some] at computed
  have offsetEq := and_low_mask_toNat address 0xfff 12 (by decide)
  omega

/-- Every iteration makes progress and stays within the request. -/
theorem chunkAt_progress {errors : ChunkErrors} {address current : UInt64}
    {length completed chunkEnd : Nat} (unfinished : completed < length)
    (planned : chunkAt errors address length completed =
      .ok (current, chunkEnd)) :
    completed < chunkEnd ∧ chunkEnd ≤ length := by
  unfold chunkAt at planned
  obtain ⟨_, _, planned⟩ := bind_eq_ok.mp planned
  obtain ⟨start, _, planned⟩ := bind_eq_ok.mp planned
  obtain ⟨page, pageComputed, planned⟩ := bind_eq_ok.mp planned
  obtain ⟨remaining, remainingComputed, planned⟩ := bind_eq_ok.mp planned
  obtain ⟨stop, stopComputed, planned⟩ := bind_eq_ok.mp planned
  obtain ⟨_, within, planned⟩ := bind_eq_ok.mp planned
  have positive := pageRemaining_positive pageComputed
  rw [okOr_eq_ok, Usize.checkedSub_eq_some] at remainingComputed
  rw [okOr_eq_ok, Usize.checkedAdd_eq_some] at stopComputed
  rw [rejectIf_eq_ok] at within
  have stopEq : stop = chunkEnd := (Prod.mk.inj (Except.ok.inj planned)).2
  omega

section Loops

variable {τ : Type}

/-- The loop of `read_virtual`, over whatever translates an address. -/
def readVirtualFrom (translateAt : τ → Gva → τ × Result Translation)
    (memory : MemoryAccess) (address : UInt64) (length completed : Nat)
    (state : τ) : τ × Result (List UInt8) :=
  if unfinished : completed < length then
    match planned : chunkAt (readErrors address length) address length
        completed with
    | .error error => (state, .error error)
    | .ok (current, chunkEnd) =>
        match translateAt state ⟨current⟩ with
        | (state, .error error) => (state, .error error)
        | (state, .ok translation) =>
            match memory.readInto translation.physicalAddress
                (chunkEnd - completed) with
            | .error error => (state, .error error)
            | .ok chunk =>
                have := chunkAt_progress unfinished planned
                match readVirtualFrom translateAt memory address length chunkEnd
                    state with
                | (state, .error error) => (state, .error error)
                | (state, .ok rest) => (state, .ok (chunk.val ++ rest))
  else
    (state, .ok [])
termination_by length - completed

/-- The loop of `write_virtual`, over whatever translates an address and
stores a chunk. -/
def writeVirtualFrom (translateAt : τ → Gva → τ × Result Translation)
    (write : τ → Gpa → List UInt8 → τ × Result Unit) (address : UInt64)
    (data : List UInt8) (completed : Nat) (state : τ) : τ × Result Unit :=
  if unfinished : completed < data.length then
    match planned : chunkAt writeErrors address data.length completed with
    | .error error => (state, .error error)
    | .ok (current, chunkEnd) =>
        match translateAt state ⟨current⟩ with
        | (state, .error error) => (state, .error error)
        | (state, .ok translation) =>
            match write state translation.physicalAddress
                ((data.drop completed).take (chunkEnd - completed)) with
            | (state, .error error) => (state, .error error)
            | (state, .ok _) =>
                have := chunkAt_progress unfinished planned
                writeVirtualFrom translateAt write address data chunkEnd state
  else
    (state, .ok ())
termination_by data.length - completed

end Loops

namespace VmiSession

variable {σ : Type} [Session σ]

/-- The session part of `attach`, once the connector has produced it. -/
def attach (session : σ) : Result (VmiSession σ) := do
  let translations ← TranslationCache.new 4096
  return ⟨session, translations⟩

def readBytes (self : VmiSession σ) (address : Gpa) (length : Nat) :
    Result (List UInt8) := do
  let memory ← Session.memory self.session
  LibVmi.readBytes memory address length

def clearTranslationCache (self : VmiSession σ) : VmiSession σ × Result Unit :=
  ({ self with translations := self.translations.clear }, .ok ())

def writeBytes (self : VmiSession σ) (address : Gpa) (data : List UInt8) :
    VmiSession σ × Result Unit :=
  match Session.memoryWrite self.session with
  | .error error => (self, .error error)
  | .ok _ =>
      let (session, result) := LibVmi.writeBytes self.session address data
      let (self, invalidation) := clearTranslationCache { self with session }
      (self, do let _ ← result; invalidation)

/-- The walk of one page over the memory of the moment. -/
def walkPage (session : σ) (translator : AddressTranslator)
    (root pageAddress : UInt64) : Result Translation := do
  let memory ← Session.memory session
  translator.translate memory ⟨root⟩ ⟨pageAddress⟩

def translate (self : VmiSession σ) (translator : AddressTranslator)
    (root : TranslationRoot) (address : Gva) :
    VmiSession σ × Result Translation :=
  let pageAddress := pageBase address.raw
  match checkedSub address.raw pageAddress with
  | none => (self, .error (.backend "virtual page offset underflow"))
  | some pageOffset =>
      let key := (translator.cacheTag, root.raw, pageAddress)
      match self.translations.get key with
      | some value => (self, offsetTranslation value pageOffset address)
      | none =>
          match walkPage self.session translator root.raw pageAddress with
          | .error error => (self, .error error)
          | .ok value =>
              ({ self with translations := self.translations.insert key value },
                offsetTranslation value pageOffset address)

/-- The buffer that `read_virtual` fills. -/
def reserveVirtual (length : Nat) : Result Unit :=
  tryReserveExact length
    s!"failed to allocate {length}-byte virtual read buffer"

def readVirtual (self : VmiSession σ) (translator : AddressTranslator)
    (root : TranslationRoot) (address : Gva) (length : Nat) :
    VmiSession σ × Result (List UInt8) :=
  match reserveVirtual length with
  | .error error => (self, .error error)
  | .ok () =>
      match Session.memory self.session with
      | .error error => (self, .error error)
      | .ok memory =>
          readVirtualFrom
            (fun self current => self.translate translator root current)
            memory address.raw length 0 self

def writeVirtual (self : VmiSession σ) (translator : AddressTranslator)
    (root : TranslationRoot) (address : Gva) (data : List UInt8) :
    VmiSession σ × Result Unit :=
  let (self, result) : VmiSession σ × Result Unit :=
    match Session.memoryWrite self.session with
    | .error error => (self, .error error)
    | .ok _ =>
        writeVirtualFrom
          (fun self current => self.translate translator root current)
          (fun self physical chunk =>
            let (session, result) := Session.write self.session physical chunk
            ({ self with session }, result))
          address.raw data 0 self
  let (self, invalidation) := self.clearTranslationCache
  (self, do let _ ← result; invalidation)

/-! The same calls with the cache disabled: every translation walks. -/

def translateUncached (session : σ) (translator : AddressTranslator)
    (root : TranslationRoot) (address : Gva) : Result Translation :=
  let pageAddress := pageBase address.raw
  match checkedSub address.raw pageAddress with
  | none => .error (.backend "virtual page offset underflow")
  | some pageOffset => do
      let value ← walkPage session translator root.raw pageAddress
      offsetTranslation value pageOffset address

def readVirtualUncached (session : σ) (translator : AddressTranslator)
    (root : TranslationRoot) (address : Gva) (length : Nat) :
    Result (List UInt8) := do
  reserveVirtual length
  let memory ← Session.memory session
  (readVirtualFrom (fun session current =>
      (session, translateUncached session translator root current))
    memory address.raw length 0 session).2

end VmiSession

end LibVmi.Core
