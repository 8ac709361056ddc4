import LibVmi.Data.Collect
import LibVmi.Os.GuestText
import LibVmi.Os.Linux

namespace LibVmi.Os

open Data Arch LibVmi.Core

structure LinuxFileOffsets where
  taskFiles : UInt64
  filesFdt : UInt64
  fdtableMaxFds : UInt64
  fdtableFd : UInt64
  filePath : UInt64
  pathDentry : UInt64
  dentryName : UInt64
  qstrLength : UInt64
  qstrName : UInt64
  maximumNameBytes : Nat
  deriving DecidableEq, Repr

structure LinuxOpenFile where
  descriptor : UInt32
  file : Gva
  dentry : Gva
  name : String
  deriving DecidableEq, Repr

namespace LinuxIntrospector

section Files

variable {σ : Type} [Session σ] (self : LinuxIntrospector σ)

/-- The name of an open file, which `open_files` reads in its own way. -/
def openFileName (dentry : UInt64) (offsets : LinuxFileOffsets) :
    Result String := do
  let qstr ← add dentry offsets.dentryName "dentry name"
  let nameLength ← self.readU32 (← add qstr offsets.qstrLength "qstr length")
  rejectIf (Usize.limit ≤ nameLength.toNat)
    (.backend "Linux dentry name length is too large")
  rejectIf (offsets.maximumNameBytes < nameLength.toNat)
    (.backend (s!"Linux dentry name length {nameLength} exceeds limit "
      ++ s!"{offsets.maximumNameBytes}"))
  let namePointer ← self.readU64 (← add qstr offsets.qstrName "qstr name")
  rejectIf (nameLength ≠ 0 ∧ namePointer = 0)
    (.backend "non-empty Linux dentry name has null pointer")
  let bytes ←
    if nameLength = 0 then
      pure []
    else
      self.readVirtual ⟨namePointer⟩ nameLength.toNat
  decodeGuestBytes bytes "Linux open-file name"

def descriptorSlot (fdArray : UInt64) (descriptor : UInt32) : Result UInt64 := do
  let offset ← okOr (checkedMul (UInt64.ofNat descriptor.toNat) 8)
    (.backend "Linux file descriptor slot overflow")
  okOr (checkedAdd fdArray offset) (.backend "Linux fd array overflow")

/-- One round of `open_files`. A descriptor whose slot is null is skipped. -/
def openFile (fdArray : UInt64) (offsets : LinuxFileOffsets)
    (descriptor : Nat) : Result (Option LinuxOpenFile) := do
  let descriptorU32 : UInt32 ← okOr (tryFrom descriptor)
    (.backend "Linux file descriptor exceeds u32")
  let slot ← descriptorSlot fdArray descriptorU32
  let file ← self.readU64 slot
  if file = 0 then
    return none
  else do
    let path ← add file offsets.filePath "file path"
    let dentry ← self.readU64 (← add path offsets.pathDentry "path dentry")
    rejectIf (dentry = 0)
      (.backend s!"Linux file descriptor {descriptor} has null dentry")
    let name ← self.openFileName dentry offsets
    return some ⟨descriptorU32, ⟨file⟩, ⟨dentry⟩, name⟩

def openFiles (task : Gva) (offsets : LinuxFileOffsets)
    (descriptorLimit : Nat) : Result (List LinuxOpenFile) := do
  rejectIf (descriptorLimit = 0 ∨ offsets.maximumNameBytes = 0 ∨
      65536 < offsets.maximumNameBytes)
    (.backend "invalid Linux file descriptor or name limit")
  let files ← self.readU64 (← add task.raw offsets.taskFiles "task files")
  if files = 0 then
    return []
  else do
    let fdt ← self.readU64 (← add files offsets.filesFdt "files fdt")
    rejectIf (fdt = 0) (.backend "Linux files_struct has null fdt")
    let maxFds ← self.readU32
      (← add fdt offsets.fdtableMaxFds "fdtable max_fds")
    rejectIf (Usize.limit ≤ maxFds.toNat)
      (.backend "Linux fdtable size does not fit this host")
    rejectIf (descriptorLimit < maxFds.toNat)
      (.backend s!"Linux fdtable size {maxFds} exceeds limit {descriptorLimit}")
    let fdArray ← self.readU64 (← add fdt offsets.fdtableFd "fdtable fd")
    rejectIf (maxFds ≠ 0 ∧ fdArray = 0)
      (.backend "non-empty Linux fdtable has null fd array")
    collect (self.openFile fdArray offsets) maxFds.toNat

/-! What the pointers of the guest say about a task's files. -/

/-- The pointer at an offset into a structure. -/
def Field (base offset value : UInt64) : Prop :=
  ∃ address : UInt64, address.toNat = base.toNat + offset.toNat ∧
    self.readU64 address = .ok value

/-- The size and the array of the descriptor table that the files lead to. -/
structure DescriptorTable (offsets : LinuxFileOffsets) (files : UInt64)
    (maxFds : UInt32) (fdArray : UInt64) : Prop where
  reached : ∃ fdt, self.Field files offsets.filesFdt fdt ∧ fdt ≠ 0 ∧
    (∃ address : UInt64, address.toNat = fdt.toNat + offsets.fdtableMaxFds.toNat ∧
      self.readU32 address = .ok maxFds) ∧
    self.Field fdt offsets.fdtableFd fdArray
  present : maxFds ≠ 0 → fdArray ≠ 0

def SlotHolds (fdArray : UInt64) (descriptor : Nat) (file : UInt64) : Prop :=
  ∃ slot : UInt64, slot.toNat = fdArray.toNat + 8 * descriptor ∧
    self.readU64 slot = .ok file

/-- The offsets that a walk up the directory tree uses for a name. -/
def namesOf (offsets : LinuxFileOffsets) (parent : UInt64) :
    LinuxDentryOffsets :=
  ⟨parent, offsets.dentryName, offsets.qstrLength, offsets.qstrName,
    offsets.maximumNameBytes⟩

/-- A file leads to a dentry whose name is the one that every walk up the
directory tree reads for it. -/
def FileShows (offsets : LinuxFileOffsets) (file dentry : UInt64)
    (name : String) : Prop :=
  (∃ path : UInt64, path.toNat = file.toNat + offsets.filePath.toNat ∧
    self.Field path offsets.pathDentry dentry) ∧ dentry ≠ 0 ∧
  ∀ parent, self.readDentryName dentry (namesOf offsets parent) = .ok name

/-- The open files of a task: one for each descriptor of the table whose slot is
not null, in the order of the descriptors. -/
structure FilesOpen (offsets : LinuxFileOffsets) (maxFds : UInt32)
    (fdArray : UInt64) (out : List LinuxOpenFile) : Prop where
  shown : ∀ descriptor < maxFds.toNat, ∃ file,
    self.SlotHolds fdArray descriptor file ∧
      (file ≠ 0 → ∃ dentry name, self.FileShows offsets file dentry name)
  ascending : out.Pairwise fun left right => left.descriptor < right.descriptor
  mem_iff : ∀ entry, entry ∈ out ↔ entry.descriptor < maxFds ∧
    self.SlotHolds fdArray entry.descriptor.toNat entry.file.raw ∧
    entry.file.raw ≠ 0 ∧
    self.FileShows offsets entry.file.raw entry.dentry.raw entry.name

variable {self} {offsets : LinuxFileOffsets} {fdArray : UInt64}

theorem add_eq_ok {base offset sum : UInt64} {field : String} :
    add base offset field = .ok sum ↔
      sum.toNat = base.toNat + offset.toNat := by
  unfold add
  rw [okOr_eq_ok]
  exact checkedAdd_eq_some

/-- The decoder's description only shows in its errors. -/
theorem decodeGuestBytes_description {bytes : List UInt8} {text : String}
    {first second : String} (decoded : decodeGuestBytes bytes first = .ok text) :
    decodeGuestBytes bytes second = .ok text := by
  obtain ⟨_, _, here⟩ := decodeGuestBytes_lossy bytes first
  obtain ⟨_, _, there⟩ := decodeGuestBytes_lossy bytes second
  obtain lossy | ⟨_, _, error, _, failed⟩ := here
  · rw [lossy] at decoded
    obtain other | ⟨long, illFormed, error, reserved, _⟩ := there
    · rw [other, decoded]
    · -- A length that one call has room for, the other has room for too.
      unfold decodeGuestBytes at lossy
      cases checked : fromUtf8 bytes with
      | ok valid =>
          refine absurd ?_ illFormed
          unfold fromUtf8 at checked
          cases scanned : utf8Chars 0 bytes with
          | ok chars => exact ⟨chars, utf8Chars_ok scanned⟩
          | error error =>
              rw [scanned] at checked
              cases checked
      | error error =>
          rw [checked] at lossy
          obtain ⟨_, room, _⟩ := bind_eq_ok.mp lossy
          exact absurd (reserveDecoded_ok_iff.mp room) (Nat.not_lt.mpr long)
  · rw [failed] at decoded
    cases decoded

theorem decodeGuestBytes_nil (description : String) :
    decodeGuestBytes [] description = .ok "" := by
  unfold decodeGuestBytes fromUtf8
  rw [utf8Chars]
  rfl

/-- Both readers of a dentry's name read the same name. -/
theorem openFileName_eq_ok {dentry parent : UInt64} {name : String} :
    self.openFileName dentry offsets = .ok name ↔
      self.readDentryName dentry (namesOf offsets parent) = .ok name := by
  unfold openFileName readDentryName namesOf
  simp only [bind_eq_ok, rejectIf_eq_ok]
  refine exists_congr fun qstr => and_congr_right fun _ =>
    exists_congr fun lengthAt => and_congr_right fun _ =>
    exists_congr fun length => and_congr_right fun _ =>
    exists_congr fun _ => and_congr_right fun _ =>
    exists_congr fun _ => and_congr_right fun _ =>
    exists_congr fun nameAt => and_congr_right fun _ =>
    exists_congr fun pointer => and_congr_right fun _ =>
    exists_congr fun _ => and_congr_right fun _ => ?_
  by_cases empty : length = 0
  · simp only [if_pos empty, pure_eq_ok, ok_bind, decodeGuestBytes_nil]
  · simp only [if_neg empty, bind_eq_ok]
    refine exists_congr fun bytes => and_congr_right fun _ => ?_
    exact ⟨decodeGuestBytes_description, decodeGuestBytes_description⟩

theorem descriptorSlot_eq_ok {descriptor : UInt32} {slot : UInt64} :
    descriptorSlot fdArray descriptor = .ok slot ↔
      slot.toNat = fdArray.toNat + 8 * descriptor.toNat := by
  have small : descriptor.toNat < 2 ^ 32 := descriptor.toNat_lt
  have widened : (UInt64.ofNat descriptor.toNat).toNat = descriptor.toNat :=
    UInt64.toNat_ofNat_of_lt' (by change _ < 2 ^ 64; omega)
  have room : (UInt64.ofNat (descriptor.toNat * 8)).toNat =
      descriptor.toNat * 8 :=
    UInt64.toNat_ofNat_of_lt' (by change _ < 2 ^ 64; omega)
  unfold descriptorSlot
  simp only [bind_eq_ok, okOr_eq_ok, checkedMul_eq_some, checkedAdd_eq_some,
    unsigned_toNat_uint64, widened]
  constructor
  · rintro ⟨offset, offsetEq, slotEq⟩
    rw [slotEq, offsetEq, Nat.mul_comm]
    rfl
  · intro slotEq
    refine ⟨UInt64.ofNat (descriptor.toNat * 8), room, ?_⟩
    rw [slotEq, room, Nat.mul_comm]

theorem fileShows_iff {file dentry : UInt64} {name : String} :
    self.FileShows offsets file dentry name ↔
      (∃ path, add file offsets.filePath "file path" = .ok path ∧
        self.Field path offsets.pathDentry dentry) ∧ dentry ≠ 0 ∧
      self.openFileName dentry offsets = .ok name := by
  unfold FileShows
  simp only [add_eq_ok, ← openFileName_eq_ok, forall_const]

theorem openFile_eq_ok {descriptor : UInt32} {found : Option LinuxOpenFile} :
    self.openFile fdArray offsets descriptor.toNat = .ok found ↔
      ∃ file, self.SlotHolds fdArray descriptor.toNat file ∧
        (file = 0 ∧ found = none ∨ file ≠ 0 ∧ ∃ dentry name,
          self.FileShows offsets file dentry name ∧
          found = some ⟨descriptor, ⟨file⟩, ⟨dentry⟩, name⟩) := by
  have same : (tryFrom descriptor.toNat : Option UInt32) = some descriptor :=
    tryFrom_eq_some.mpr rfl
  unfold openFile SlotHolds
  simp only [same, okOr_some, ok_bind, bind_eq_ok, descriptorSlot_eq_ok]
  constructor
  · rintro ⟨slot, placed, file, read, rest⟩
    refine ⟨file, ⟨slot, placed, read⟩, ?_⟩
    by_cases null : file = 0
    · rw [if_pos null] at rest
      cases rest
      exact .inl ⟨null, rfl⟩
    · rw [if_neg null] at rest
      simp only [bind_eq_ok, rejectIf_eq_ok] at rest
      obtain ⟨path, pathEq, dentryAt, dentryAtEq, dentry, read, _, present,
        name, named, given⟩ := rest
      cases given
      refine .inr ⟨null, dentry, name, fileShows_iff.mpr ⟨?_, present, named⟩,
        rfl⟩
      exact ⟨path, pathEq, dentryAt, add_eq_ok.mp dentryAtEq, read⟩
  · rintro ⟨file, ⟨slot, placed, read⟩, rest⟩
    refine ⟨slot, placed, file, read, ?_⟩
    obtain ⟨null, rfl⟩ | ⟨present, dentry, name, shows, rfl⟩ := rest
    · rw [if_pos null]
      rfl
    · obtain ⟨⟨path, pathEq, dentryAt, placed, read⟩, nonnull, named⟩ :=
        fileShows_iff.mp shows
      rw [if_neg present]
      simp only [bind_eq_ok, rejectIf_eq_ok]
      exact ⟨path, pathEq, dentryAt, add_eq_ok.mpr placed, dentry, read, (),
        nonnull, name, named, rfl⟩

theorem openFile_descriptor {descriptor : Nat} {entry : LinuxOpenFile}
    (found : self.openFile fdArray offsets descriptor = .ok (some entry)) :
    entry.descriptor.toNat = descriptor := by
  have given := found
  unfold openFile at given
  obtain ⟨narrow, narrowEq, _⟩ := bind_eq_ok.mp given
  have same := tryFrom_eq_some.mp (okOr_eq_ok.mp narrowEq)
  rw [unsigned_toNat_uint32] at same
  subst descriptor
  obtain ⟨file, _, ⟨_, none⟩ | ⟨_, dentry, name, _, some⟩⟩ :=
    openFile_eq_ok.mp found
  · cases none
  · cases some
    rfl

theorem openFile_eq_some {entry : LinuxOpenFile} :
    self.openFile fdArray offsets entry.descriptor.toNat = .ok (some entry) ↔
      self.SlotHolds fdArray entry.descriptor.toNat entry.file.raw ∧
        entry.file.raw ≠ 0 ∧
        self.FileShows offsets entry.file.raw entry.dentry.raw entry.name := by
  rw [openFile_eq_ok]
  constructor
  · rintro ⟨file, slot, ⟨_, none⟩ | ⟨present, dentry, name, shows, some⟩⟩
    · cases none
    · rw [Option.some.inj some]
      exact ⟨slot, present, shows⟩
  · rintro ⟨slot, present, shows⟩
    exact ⟨_, slot, .inr ⟨present, _, _, shows, rfl⟩⟩

theorem openFile_answered {descriptor : UInt32} :
    (∃ found, self.openFile fdArray offsets descriptor.toNat = .ok found) ↔
      ∃ file, self.SlotHolds fdArray descriptor.toNat file ∧
        (file ≠ 0 → ∃ dentry name,
          self.FileShows offsets file dentry name) := by
  simp only [openFile_eq_ok]
  constructor
  · rintro ⟨found, file, slot, ⟨null, _⟩ | ⟨_, dentry, name, shows, _⟩⟩
    · exact ⟨file, slot, fun present => absurd null present⟩
    · exact ⟨file, slot, fun _ => ⟨dentry, name, shows⟩⟩
  · rintro ⟨file, slot, shown⟩
    by_cases null : file = 0
    · exact ⟨none, file, slot, .inl ⟨null, rfl⟩⟩
    · obtain ⟨dentry, name, shows⟩ := shown null
      exact ⟨_, file, slot, .inr ⟨null, dentry, name, shows, rfl⟩⟩

/-- The rounds together list the open files. -/
theorem openFileRounds_eq_ok {maxFds : UInt32} {out : List LinuxOpenFile} :
    collect (self.openFile fdArray offsets) maxFds.toNat = .ok out ↔
      self.FilesOpen offsets maxFds fdArray out := by
  have narrow {descriptor : Nat} (below : descriptor < maxFds.toNat) :
      (UInt32.ofNat descriptor).toNat = descriptor :=
    UInt32.toNat_ofNat_of_lt' (Nat.lt_trans below maxFds.toNat_lt)
  rw [collect_eq_ok fun _ _ => openFile_descriptor]
  constructor
  · rintro ⟨answered, ascending, mem_iff⟩
    refine ⟨?_, ascending, fun entry => ?_⟩
    · intro descriptor below
      have given := answered descriptor below
      rw [← narrow below] at given ⊢
      exact openFile_answered.mp given
    · rw [mem_iff, openFile_eq_some]
      rfl
  · rintro ⟨shown, ascending, mem_iff⟩
    refine ⟨?_, ascending, fun entry => ?_⟩
    · intro descriptor below
      have given := shown descriptor below
      rw [← narrow below] at given ⊢
      exact openFile_answered.mpr given
    · rw [mem_iff, openFile_eq_some]
      rfl

end Files

/-- The open files of a task are listed exactly, or not at all: a task without
files has none, and one descriptor that cannot be shown fails the listing. -/
theorem open_files_exact {σ : Type} [Session σ] (self : LinuxIntrospector σ)
    (task : Gva) (offsets : LinuxFileOffsets) (descriptorLimit : Nat)
    (out : List LinuxOpenFile) :
    self.openFiles task offsets descriptorLimit = .ok out ↔
      (0 < descriptorLimit ∧ 0 < offsets.maximumNameBytes ∧
        offsets.maximumNameBytes ≤ 65536) ∧
      ∃ files, self.Field task.raw offsets.taskFiles files ∧
        (files = 0 ∧ out = [] ∨
          files ≠ 0 ∧ ∃ maxFds fdArray,
            self.DescriptorTable offsets files maxFds fdArray ∧
            maxFds.toNat ≤ descriptorLimit ∧
            self.FilesOpen offsets maxFds fdArray out) := by
  have limits : (¬ (descriptorLimit = 0 ∨ offsets.maximumNameBytes = 0 ∨
      65536 < offsets.maximumNameBytes)) ↔
      0 < descriptorLimit ∧ 0 < offsets.maximumNameBytes ∧
        offsets.maximumNameBytes ≤ 65536 := by
    omega
  unfold openFiles
  rw [rejectIf_bind_eq_ok, limits]
  refine and_congr_right fun _ => ?_
  simp only [bind_eq_ok, add_eq_ok]
  constructor
  · rintro ⟨filesAt, filesAtEq, files, read, rest⟩
    refine ⟨files, ⟨filesAt, filesAtEq, read⟩, ?_⟩
    by_cases null : files = 0
    · rw [if_pos null] at rest
      cases rest
      exact .inl ⟨null, rfl⟩
    · rw [if_neg null] at rest
      simp only [bind_eq_ok, rejectIf_eq_ok, add_eq_ok] at rest
      obtain ⟨fdtAt, fdtAtEq, fdt, fdtRead, _, fdtPresent, sizeAt, sizeAtEq,
        maxFds, sizeRead, _, _, _, small, arrayAt, arrayAtEq, fdArray,
        arrayRead, _, present, rounds⟩ := rest
      refine .inr ⟨null, maxFds, fdArray, ⟨⟨fdt, ⟨fdtAt, fdtAtEq, fdtRead⟩,
        fdtPresent, ⟨sizeAt, sizeAtEq, sizeRead⟩,
        ⟨arrayAt, arrayAtEq, arrayRead⟩⟩, ?_⟩, Nat.not_lt.mp small,
        openFileRounds_eq_ok.mp rounds⟩
      exact fun entries missing => present ⟨entries, missing⟩
  · rintro ⟨files, ⟨filesAt, filesAtEq, read⟩, rest⟩
    refine ⟨filesAt, filesAtEq, files, read, ?_⟩
    obtain ⟨null, rfl⟩ | ⟨present, maxFds, fdArray, table, small, opened⟩ := rest
    · rw [if_pos null]
      rfl
    · obtain ⟨⟨fdt, ⟨fdtAt, fdtAtEq, fdtRead⟩, fdtPresent,
        ⟨sizeAt, sizeAtEq, sizeRead⟩, ⟨arrayAt, arrayAtEq, arrayRead⟩⟩,
        arrayPresent⟩ := table
      have fits : maxFds.toNat < Usize.limit :=
        Nat.lt_trans maxFds.toNat_lt (by decide)
      rw [if_neg present]
      simp only [bind_eq_ok, rejectIf_eq_ok, add_eq_ok]
      exact ⟨fdtAt, fdtAtEq, fdt, fdtRead, (), fdtPresent, sizeAt, sizeAtEq,
        maxFds, sizeRead, (), Nat.not_le.mpr fits, (), Nat.not_lt.mpr small,
        arrayAt, arrayAtEq, fdArray, arrayRead, (),
        fun given => arrayPresent given.1 given.2,
        openFileRounds_eq_ok.mpr opened⟩

end LinuxIntrospector

end LibVmi.Os
