import LibVmi.Data.ByteMap
import LibVmi.Data.SparseMemory
import LibVmi.Data.Words
import LibVmi.Xen.Transports

namespace LibVmi.Xen

open LibVmi.Data Sparse

/-! Guest memory through mappings of single pages. A mapping shows the 4096
bytes of one guest frame; it is made and released for every page of a
transfer. -/

/-- A buffer of the length that it was lent with. -/
abbrev Lent (length : Nat) := { bytes : List UInt8 // bytes.length = length }

namespace Lent

variable {length : Nat}

/-- What `copy_nonoverlapping` puts at a place of the buffer. -/
def fill (buffer : Lent length) (start : Nat) {count : Nat} (chunk : Lent count)
    (within : start + count ≤ length) : Lent length :=
  ⟨buffer.val.take start ++ (chunk.val ++ buffer.val.drop (start + count)), by
    rw [List.length_append, List.length_append, List.length_take,
      List.length_drop, buffer.property, chunk.property]
    omega⟩

end Lent

/-- `xc_map_foreign_pages` for one page: the interface, the domain, whether the
protection includes `PROT_WRITE`, and the frame. It answers with a pointer. -/
abbrev MapPages (ω : Type) :=
  ω → UInt64 → UInt32 → Bool → UInt64 → ω × UInt64

/-- What the process is linked to, over the states `ω` of its host: the symbol
of libxenctrl or why it cannot be had, `munmap` for one page, and the memory
behind the pointers. -/
structure NativeLibrary (ω : Type) where
  xcMapForeignPages : Except String (MapPages ω)
  munmap : ω → UInt64 → ω × Int32
  load : ω → UInt64 → (count : Nat) → Lent count
  store : ω → UInt64 → List UInt8 → ω

/-- Whether a mutex is poisoned, beside what it guards. -/
structure Guarded (α : Type) where
  value : α
  poisoned : Bool

structure XenCtrlMemory (ω : Type) where
  library : NativeLibrary ω
  interface : Guarded UInt64
  domainId : UInt32

/-- `libc::MAP_FAILED`. -/
def mapFailed : UInt64 := 0xffffffffffffffff

def mappingFailed (mapping : UInt64) : Prop :=
  mapping = mapFailed ∨ mapping = 0

instance mappingFailedDecidable (mapping : UInt64) :
    Decidable (mappingFailed mapping) :=
  inferInstanceAs (Decidable (_ ∨ _))

namespace XenCtrlMemory

def missingSymbol (reason : String) : VmiError :=
  .backend s!"missing xc_map_foreign_pages: {reason}"

def lockPoisoned : VmiError :=
  .backend "xenctrl interface lock is poisoned"

def offsetOverflow : VmiError :=
  .backend "Xen transfer offset exceeds physical addressing"

def addressOverflow : VmiError :=
  .backend "Xen physical address overflow"

def mapRefused (frame : UInt64) : VmiError :=
  .backend s!"xc_map_foreign_pages failed for GFN {hex frame.toNat}"

def unmapRefused (frame : UInt64) : VmiError :=
  .backend s!"munmap failed after Xen GFN {hex frame.toNat} access"

/-- The address and the length of the part of a transfer in one page. -/
def pagePart (address : Gpa) (length completed : Nat) :
    Result (UInt64 × Nat) := do
  let completedAddress : UInt64 ← okOr (tryFrom completed) offsetOverflow
  let current ← okOr (checkedAdd address.raw completedAddress) addressOverflow
  let pageOffset := (current &&& 0xfff).toNat
  let pageRemaining ← okOr (Usize.checkedSub 4096 pageOffset)
    (.backend "Xen page offset invariant failed")
  let bufferRemaining ← okOr (Usize.checkedSub length completed)
    (.backend "Xen transfer progress invariant failed")
  return (current, min pageRemaining bufferRemaining)

theorem pageOffset_toNat (address : UInt64) :
    (address &&& 0xfff).toNat = address.toNat % 4096 :=
  and_low_mask_toNat address 0xfff 12 (by decide)

theorem frame_toNat (address : UInt64) :
    (address >>> 12).toNat = address.toNat / 4096 :=
  shiftRight_toNat address (by decide : 12 < 64)

theorem pagePart_eq_ok {address : Gpa} {length completed count : Nat}
    {current : UInt64} (within : completed ≤ length) :
    pagePart address length completed = .ok (current, count) ↔
      current.toNat = address.raw.toNat + completed ∧
        count = min (4096 - current.toNat % 4096) (length - completed) := by
  simp only [pagePart, bind_eq_ok, okOr_eq_ok, tryFrom_eq_some,
    checkedAdd_eq_some, Usize.checkedSub_eq_some, unsigned_toNat_uint64,
    pageOffset_toNat, pure_eq_ok, Except.ok.injEq, Prod.mk.injEq]
  constructor
  · rintro ⟨progress, progressEq, start, startEq, page, pageEq, rest, restEq,
      rfl, rfl⟩
    have pageIs : page = 4096 - start.toNat % 4096 := by omega
    have restIs : rest = length - completed := by omega
    exact ⟨by omega, by rw [pageIs, restIs]⟩
  · rintro ⟨currentEq, rfl⟩
    have bound := current.toNat_lt
    have completedEq : (UInt64.ofNat completed).toNat = completed :=
      UInt64.toNat_ofNat_of_lt' (by simp only [UInt64.size]; omega)
    refine ⟨UInt64.ofNat completed, completedEq, current, by omega,
      4096 - current.toNat % 4096, by omega, length - completed, by omega, rfl,
      rfl⟩

theorem pagePart_positive {address : Gpa} {length completed count : Nat}
    {current : UInt64} (unfinished : completed < length)
    (planned : pagePart address length completed = .ok (current, count)) :
    0 < count ∧ completed + count ≤ length := by
  obtain ⟨_, rfl⟩ := (pagePart_eq_ok unfinished.le).mp planned
  omega

/-- The copy between a mapped page and a part of the buffer. -/
def copy {ω : Type} (self : XenCtrlMemory ω) (world : ω) (write : Bool)
    (pointer : UInt64) {length : Nat} (buffer : Lent length)
    (completed count : Nat) (within : completed + count ≤ length) :
    ω × Lent length :=
  if write then
    (self.library.store world pointer
      ((buffer.val.drop completed).take count), buffer)
  else
    (world, buffer.fill completed (self.library.load world pointer count) within)

section Accesses

variable {ω : Type}

/-- The loop of `access`. The buffer is handed back as every outcome leaves
it. -/
def accessPages (self : XenCtrlMemory ω) (map : MapPages ω) (address : Gpa) (write : Bool)
    {length : Nat} (completed : Nat) (world : ω) (buffer : Lent length) :
    ω × Lent length × Result Unit :=
  if unfinished : completed < length then
    match planned : pagePart address length completed with
    | .error error => (world, buffer, .error error)
    | .ok (current, count) =>
        have part := pagePart_positive unfinished planned
        let frame := current >>> 12
        match map world self.interface.value self.domainId write frame with
        | (world, mapping) =>
            if mappingFailed mapping then
              (world, buffer, .error (mapRefused frame))
            else
              let pointer := mapping + (current &&& 0xfff)
              match self.copy world write pointer buffer completed count
                  part.2 with
              | (world, buffer) =>
                  match self.library.munmap world mapping with
                  | (world, answer) =>
                      if answer ≠ 0 then
                        (world, buffer, .error (unmapRefused frame))
                      else
                        self.accessPages map address write (completed + count)
                          world buffer
  else
    (world, buffer, .ok ())
termination_by length - completed

def access (self : XenCtrlMemory ω) (world : ω) (address : Gpa) (write : Bool) {length : Nat}
    (buffer : Lent length) : ω × Lent length × Result Unit :=
  match self.library.xcMapForeignPages with
  | .error reason => (world, buffer, .error (missingSymbol reason))
  | .ok map =>
      if self.interface.poisoned then
        (world, buffer, .error lockPoisoned)
      else
        self.accessPages map address write 0 world buffer

def readInto (self : XenCtrlMemory ω) (world : ω) (address : Gpa) (length : Nat) :
    ω × Result (Lent length) :=
  match self.access world address false
      (⟨List.replicate length 0, List.length_replicate⟩ : Lent length) with
  | (world, buffer, result) => (world, result.map fun _ => buffer)

def write (self : XenCtrlMemory ω) (world : ω) (address : Gpa)
    (data : List UInt8) : ω × Result Unit :=
  match tryReserveExact data.length "failed to allocate Xen write buffer" with
  | .error error => (world, .error error)
  | .ok () =>
      match self.access world address true (⟨data, rfl⟩ : Lent data.length) with
      | (world, _, result) => (world, result)

def memoryTransport (self : XenCtrlMemory ω) : XenMemoryTransport ω where
  readInto := self.readInto
  write := self.write

end Accesses

end XenCtrlMemory

/-! What is documented of the two libraries, for guests that stand still. -/

/-- A page of a guest in the address space of the process. -/
structure ForeignPage where
  mapping : UInt64
  domainId : UInt32
  frame : UInt64
  writable : Bool
  deriving DecidableEq, Repr

/-- What a state of the host comes down to: the memory of every domain, and the
guest pages that the process has mapped. -/
structure HostView (ω : Type) where
  contents : ω → UInt32 → UInt64 → Option UInt8
  mapped : ω → Set ForeignPage

namespace HostView

variable {ω : Type}

def memory (view : HostView ω) (world : ω) (domainId : UInt32) :
    Nat → Option UInt8 :=
  atAddress (view.contents world domainId)

end HostView

/-- A mapping is made at a place that was free, shows a page of the memory of
its domain for as long as it is there, and goes with `munmap`. -/
structure Documented {ω : Type} (library : NativeLibrary ω)
    (view : HostView ω) : Prop where
  map_contents : ∀ map, library.xcMapForeignPages = .ok map →
    ∀ world interface domainId write frame,
      view.contents (map world interface domainId write frame).1 =
        view.contents world
  map_fails : ∀ map, library.xcMapForeignPages = .ok map →
    ∀ world interface domainId write frame,
      mappingFailed (map world interface domainId write frame).2 →
        view.mapped (map world interface domainId write frame).1 =
          view.mapped world
  map_maps : ∀ map, library.xcMapForeignPages = .ok map →
    ∀ world interface domainId write frame after mapping,
      map world interface domainId write frame = (after, mapping) →
      ¬ mappingFailed mapping →
        (∀ page ∈ view.mapped world, page.mapping ≠ mapping) ∧
          view.mapped after =
            insert ⟨mapping, domainId, frame, write⟩ (view.mapped world)
  loads : ∀ world, ∀ page ∈ view.mapped world, ∀ (offset : UInt64) count,
    offset.toNat + count ≤ 4096 →
      readRange (view.memory world page.domainId)
          (page.frame.toNat * 4096 + offset.toNat) count =
        some (library.load world (page.mapping + offset) count).val
  store_mapped : ∀ world pointer data,
    view.mapped (library.store world pointer data) = view.mapped world
  stores : ∀ world, ∀ page ∈ view.mapped world, page.writable = true →
    ∀ (offset : UInt64) data, offset.toNat + data.length ≤ 4096 →
      view.memory (library.store world (page.mapping + offset) data)
          page.domainId =
        overlay (page.frame.toNat * 4096 + offset.toNat) data
          (view.memory world page.domainId) ∧
        ∀ other, other ≠ page.domainId →
          view.contents (library.store world (page.mapping + offset) data)
            other = view.contents world other
  unmap_contents : ∀ world mapping,
    view.contents (library.munmap world mapping).1 = view.contents world
  unmap_fails : ∀ world mapping, (library.munmap world mapping).2 ≠ 0 →
    view.mapped (library.munmap world mapping).1 = view.mapped world
  unmaps : ∀ world mapping, (library.munmap world mapping).2 = 0 →
    view.mapped (library.munmap world mapping).1 =
      {page ∈ view.mapped world | page.mapping ≠ mapping}

/-! A host that is as documented: it maps one page at a time, always at the same
place. -/

/-- The memory of one domain. A frame is there as a whole or not at all. -/
structure Domain where
  bytes : UInt64 → UInt8
  populated : UInt64 → Bool

namespace Domain

def contents (domain : Domain) (address : UInt64) : Option UInt8 :=
  if domain.populated (address >>> 12) then some (domain.bytes address)
  else none

def load (domain : Domain) (start length : Nat) : Lent length :=
  ⟨(wordsFrom start length).map domain.bytes, by
    rw [List.length_map, wordsFrom_length]⟩

def store (domain : Domain) (start : Nat) (data : List UInt8) : Domain where
  bytes := fun address =>
    if start ≤ address.toNat then
      (data[address.toNat - start]?).getD (domain.bytes address)
    else domain.bytes address
  populated := domain.populated

theorem frame_of_near {address frame : UInt64} {offset : Nat}
    (near : offset < 4096)
    (addressEq : address.toNat = frame.toNat * 4096 + offset) :
    address >>> 12 = frame := by
  rw [← UInt64.toNat_inj]
  change (address >>> UInt64.ofNat 12).toNat = _
  rw [shiftRight_toNat _ (by decide : 12 < 64)]
  omega

section Pages

variable {domain : Domain} {frame : UInt64} {offset count : Nat}
  (there : domain.populated frame = true) (physical : frame.toNat < 2 ^ 52)

include there physical

theorem readRange_load (near : offset + count ≤ 4096) :
    readRange (atAddress domain.contents) (frame.toNat * 4096 + offset) count =
      some (domain.load (frame.toNat * 4096 + offset) count).val := by
  refine readRange_eq_some.mpr ⟨(domain.load _ count).property, ?_⟩
  intro index below
  have wordEq : (UInt64.ofNat (frame.toNat * 4096 + offset + index)).toNat =
      frame.toNat * 4096 + offset + index :=
    UInt64.toNat_ofNat_of_lt' (by simp only [UInt64.size]; omega)
  rw [atAddress_toNat _ wordEq, contents,
    frame_of_near (by omega) (wordEq.trans (Nat.add_assoc ..)),
    if_pos there, load, List.getElem?_map, wordsFrom, List.getElem?_map,
    List.getElem?_range' below, Nat.one_mul]
  rfl

/-- What is stored in a page lies over the memory. -/
theorem store_contents (data : List UInt8)
    (near : offset + data.length ≤ 4096) :
    atAddress (domain.store (frame.toNat * 4096 + offset) data).contents =
      overlay (frame.toNat * 4096 + offset) data
        (atAddress domain.contents) := by
  funext address
  by_cases small : address < 2 ^ 64
  · have wordEq : (UInt64.ofNat address).toNat = address :=
      UInt64.toNat_ofNat_of_lt' small
    rw [atAddress_toNat _ wordEq, contents, store]
    simp only [wordEq]
    by_cases inside : frame.toNat * 4096 + offset ≤ address ∧
        address < frame.toNat * 4096 + offset + data.length
    · have sameFrame : UInt64.ofNat address >>> 12 = frame :=
        frame_of_near (show address - frame.toNat * 4096 < 4096 by omega)
          (by omega)
      rw [overlay_inside inside.1 inside.2, sameFrame, if_pos there,
        if_pos inside.1, List.getElem?_eq_getElem (by omega)]
      rfl
    · rw [overlay_outside (by omega), atAddress_toNat _ wordEq, contents]
      congr 2
      by_cases after : frame.toNat * 4096 + offset ≤ address
      · rw [if_pos after, List.getElem?_eq_none (by omega)]
        rfl
      · rw [if_neg after]
  · rw [atAddress_of_le _ (Nat.not_lt.mp small), overlay_outside,
      atAddress_of_le _ (Nat.not_lt.mp small)]
    omega

end Pages

end Domain

def windowAddress : UInt64 := 0x10000

structure WindowHost where
  domains : UInt32 → Domain
  window : Option ForeignPage
  unmaps : Bool
  windowed : ∀ page, window = some page → page.mapping = windowAddress ∧
    page.frame.toNat < 2 ^ 52 ∧
    (domains page.domainId).populated page.frame = true

namespace WindowHost

def map (host : WindowHost) (_interface : UInt64) (domainId : UInt32)
    (write : Bool) (frame : UInt64) : WindowHost × UInt64 :=
  if there : host.window = none ∧ frame.toNat < 2 ^ 52 ∧
      (host.domains domainId).populated frame = true then
    ({ host with
      window := some ⟨windowAddress, domainId, frame, write⟩
      windowed := by
        rintro page ⟨⟩
        exact ⟨rfl, there.2⟩ }, windowAddress)
  else
    (host, mapFailed)

def munmap (host : WindowHost) (mapping : UInt64) : WindowHost × Int32 :=
  if host.unmaps ∧ mapping = windowAddress then
    ({ host with window := none, windowed := nofun }, 0)
  else
    (host, -1)

def load (host : WindowHost) (pointer : UInt64) (count : Nat) : Lent count :=
  match host.window with
  | some page =>
      (host.domains page.domainId).load
        (page.frame.toNat * 4096 + (pointer - windowAddress).toNat) count
  | none => ⟨List.replicate count 0, List.length_replicate⟩

def store (host : WindowHost) (pointer : UInt64) (data : List UInt8) :
    WindowHost :=
  match shown : host.window with
  | some page =>
      { host with
        domains := Function.update host.domains page.domainId
          ((host.domains page.domainId).store
            (page.frame.toNat * 4096 + (pointer - windowAddress).toNat) data)
        windowed := by
          intro other there
          rw [shown] at there
          cases there
          rw [Function.update_self]
          exact host.windowed page shown }
  | none => host

def library : NativeLibrary WindowHost where
  xcMapForeignPages := .ok map
  munmap := munmap
  load := load
  store := store

def view : HostView WindowHost where
  contents := fun host domainId => (host.domains domainId).contents
  mapped := fun host => {page | host.window = some page}

theorem windowOffset (offset : UInt64) :
    windowAddress + offset - windowAddress = offset := by
  rw [UInt64.add_comm, UInt64.add_sub_cancel]

theorem windowAddress_mapped : ¬ mappingFailed windowAddress := by decide

theorem documented : Documented library view where
  map_contents := by
    rintro _ ⟨⟩ world interface domainId write frame
    unfold map
    split <;> rfl
  map_fails := by
    rintro _ ⟨⟩ world interface domainId write frame
    unfold map
    split
    · intro failed
      exact absurd failed windowAddress_mapped
    · exact fun _ => rfl
  map_maps := by
    rintro _ ⟨⟩ world interface domainId write frame after mapping mapped
      succeeded
    unfold map at mapped
    split at mapped
    · rename_i there
      cases mapped
      have free : view.mapped world = ∅ := by
        ext page
        change world.window = some page ↔ False
        rw [there.1]
        simp
      rw [free]
      refine ⟨fun _ absent => absurd absent (Set.notMem_empty _), ?_⟩
      ext page
      change some _ = some page ↔ _
      simp [eq_comm]
    · cases mapped
      exact absurd (.inl rfl) succeeded
  loads := by
    intro world page there offset count near
    obtain ⟨place, physical, populated⟩ := world.windowed page there
    change readRange (atAddress _) _ _ = some (world.load _ count).val
    unfold load
    rw [show world.window = some page from there, place]
    simp only [windowOffset]
    exact Domain.readRange_load populated physical near
  store_mapped := by
    intro world pointer data
    change {page | (world.store pointer data).window = some page} = _
    unfold store
    split <;> rfl
  stores := by
    intro world page there _ offset data near
    obtain ⟨place, physical, populated⟩ := world.windowed page there
    have stored : (world.store (page.mapping + offset) data).domains =
        Function.update world.domains page.domainId
          ((world.domains page.domainId).store
            (page.frame.toNat * 4096 + offset.toNat) data) := by
      unfold store
      split
      · rename_i other shown
        rw [show world.window = some page from there] at shown
        cases shown
        change Function.update world.domains page.domainId
          ((world.domains page.domainId).store (_ + (_ - windowAddress).toNat)
            data) = _
        rw [place, windowOffset]
      · rename_i absent
        rw [show world.window = some page from there] at absent
        contradiction
    constructor
    · change atAddress ((world.store (page.mapping + offset) data).domains
        page.domainId).contents = _
      rw [stored, Function.update_self]
      exact Domain.store_contents populated physical data near
    · intro other different
      change ((world.store (page.mapping + offset) data).domains
        other).contents = _
      rw [stored, Function.update_of_ne different]
      rfl
  unmap_contents := by
    intro world mapping
    change view.contents (world.munmap mapping).1 = view.contents world
    unfold munmap
    split <;> rfl
  unmap_fails := by
    intro world mapping
    change (world.munmap mapping).2 ≠ 0 →
      view.mapped (world.munmap mapping).1 = view.mapped world
    unfold munmap
    split
    · exact fun failed => absurd rfl failed
    · exact fun _ => rfl
  unmaps := by
    intro world mapping
    change (world.munmap mapping).2 = 0 →
      view.mapped (world.munmap mapping).1 =
        {page ∈ view.mapped world | page.mapping ≠ mapping}
    unfold munmap
    split
    · rename_i there
      intro _
      ext page
      constructor
      · intro left
        cases left
      · rintro ⟨shown, apart⟩
        exact absurd ((world.windowed page shown).1.trans there.2.symm) apart
    · intro succeeded
      exact absurd succeeded (show ¬ (-1 : Int32) = 0 by decide)

end WindowHost

end LibVmi.Xen
