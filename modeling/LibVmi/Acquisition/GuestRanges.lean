import LibVmi.Acquisition.Cores
import LibVmi.Acquisition.Published
import LibVmi.Artifact.ElfImage
import LibVmi.Data.ByteMap
import Mathlib.Data.List.TakeWhile

namespace LibVmi.Acquisition

open Data Artifact Intervals

/-! The memory of a machine, and a core of it. -/

/-- The bytes that a machine has at the moment its core is dumped. -/
structure Guest where
  memory : UInt64 → Option UInt8

namespace Guest

variable (guest : Guest)

/-- The bytes of a range, where the machine has memory for all of it. -/
def read (start : Gpa) (length : Nat) : Option (List UInt8) :=
  Sparse.read (atAddress guest.memory) start.raw.toNat length

/-- A bundle that reads like the machine. -/
structure Shows (bundle : SnapshotBundle) : Prop where
  sorted : SortedByStart bundle.segments
  bytes : ∀ address : UInt64,
    SnapshotBundle.byteAt bundle.segments address.toNat = guest.memory address

/-- An ELF file which, where it can be loaded at all, describes the memory of
the machine. How it is laid out is the command's affair. -/
structure IsCore (content : List UInt8) : Prop where
  magic : elfMagic <+: content
  describes : ∀ source data format bundle, data.bytes = content →
    fromElfWithLimits source data format defaultMaxArtifactSize = .ok bundle →
      ∀ address : UInt64, SnapshotBundle.byteAt bundle.segments address.toNat =
        guest.memory address

/-- A command that succeeds has written a core of the machine, and what is read
of a file is what it holds. -/
structure Dumps (around : Surroundings) : Prop where
  written : ∀ text, around.dump.result = .ok text →
    ∃ content, around.dump.output = some content ∧ guest.IsCore content
  opened : ∀ content file, around.openCore content = .ok file →
    file.source.bytes = content

end Guest

/-- The loader takes a core of these bytes. -/
structure Loadable (data : Buffer) : Prop where
  size : data.length ≤ defaultMaxArtifactSize.toNat
  loads : ∀ source format, ∃ bundle,
    fromElfWithLimits source data format defaultMaxArtifactSize = .ok bundle

/-- Nothing fails that could have succeeded. -/
structure Willing (around : Surroundings) : Prop where
  dumped : ∃ text, around.dump.result = .ok text
  opened : ∀ content, around.dump.output = some content → ∃ data file,
    data.bytes = content ∧ Loadable data ∧
      around.openCore content = .ok file ∧ file.Holds data
  pathIsUtf8 : around.pathIsUtf8 = true
  coreAllocation : around.coreAllocation = none
  inspectCore : around.inspectCore = none
  arguments : around.arguments = none
  buffer : around.buffer = none
  publication : around.publication = Publisher.noFaults

namespace Guest

variable {guest : Guest}

theorem IsCore.shows {content : List UInt8} (core : guest.IsCore content)
    {source format : String} {data : Buffer} (same : data.bytes = content)
    {bundle : SnapshotBundle}
    (loaded : fromElfWithLimits source data format defaultMaxArtifactSize =
      .ok bundle) : guest.Shows bundle := by
  obtain ⟨segments, _, arranged, _⟩ := fromElf_segments loaded
  exact ⟨arranged ▸ sortByStart_sorted segments,
    core.describes source data format bundle same loaded⟩

theorem coreFile_shows {around : Surroundings} (dumps : guest.Dumps around)
    {content : List UInt8} (core : guest.IsCore content) {files : Files}
    {entry : Entry} (stored : files.read entry = some content)
    {description format : String} {bundle : SnapshotBundle}
    (loaded : coreFile description format around files entry = .ok bundle) :
    guest.Shows bundle := by
  unfold coreFile at loaded
  obtain ⟨data, read, decoded⟩ := bind_eq_ok.mp loaded
  obtain ⟨file, _, opened, _, _, same⟩ := readFileLimited_bytes read
  simp only [coreHost, stored] at opened
  rw [dumps.opened _ _ opened] at same
  exact core.shows same decoded

variable {bundle : SnapshotBundle} (shows : guest.Shows bundle)

include shows in
theorem atAddress_shows {point : Nat} (inside : point < 2 ^ 64) :
    atAddress guest.memory point =
      SnapshotBundle.byteAt bundle.segments point := by
  have same : (UInt64.ofNat point).toNat = point :=
    UInt64.toNat_ofNat_of_lt' inside
  rw [atAddress_toNat guest.memory same, ← shows.bytes, same]

include shows in
theorem read_isSome {start : Gpa} {length : Nat} :
    (guest.read start length).isSome ↔
      SnapshotBundle.Covers bundle.segments start.raw.toNat length := by
  rw [read, Sparse.read_isSome, SnapshotBundle.Covers]
  constructor
  · intro present
    rcases Nat.eq_zero_or_pos length with empty | positive
    · exact .inl empty
    · have inside : start.raw.toNat + length ≤ 2 ^ 64 := by
        by_contra outside
        have last := present (start.raw.toNat + length - 1) (by omega) (by omega)
        rw [atAddress_of_le _ (by omega)] at last
        cases last
      refine .inr ⟨inside, fun point past within => ?_⟩
      have held := present point past within
      rwa [atAddress_shows shows (by omega), SnapshotBundle.byteAt_isSome]
        at held
  · rintro (empty | ⟨inside, covered⟩) point past within
    · omega
    · rw [atAddress_shows shows (by omega), SnapshotBundle.byteAt_isSome]
      exact covered point past within

include shows in
/-- A bundle made from the core reads like the machine. -/
theorem readInto_shows (address : Gpa) {output : List UInt8}
    (bounded : output.length < Usize.limit) :
    bundle.readInto address output =
      match guest.read address output.length with
      | some bytes => (bytes, .ok ())
      | none => (output, .error (.readFailed address.raw output.length)) := by
  cases found : guest.read address output.length with
  | none =>
      apply SnapshotBundle.readInto_of_not_covers
      rw [← read_isSome shows, found]
      exact Bool.false_ne_true
  | some bytes =>
      have covers := (read_isSome shows).mp (Option.isSome_of_eq_some found)
      obtain ⟨values, taken, copied⟩ :=
        SnapshotBundle.readInto_of_covers shows.sorted bounded covers
      have same : Sparse.read (atAddress guest.memory) address.raw.toNat
          output.length = Sparse.read (SnapshotBundle.byteAt bundle.segments)
            address.raw.toNat output.length := by
        refine Sparse.read_congr fun point past within => ?_
        rcases covers with empty | ⟨inside, _⟩
        · omega
        · exact atAddress_shows shows (by omega)
      rw [read, same, taken] at found
      rw [copied, Option.some.inj found]

include shows in
theorem rangeBytes_eq_ok (failed : String) {around : Surroundings}
    {start : Gpa} {length : Nat} (bounded : length < Usize.limit)
    {bytes : List UInt8} :
    rangeBytes failed around bundle start length = .ok bytes ↔
      around.buffer = none ∧ guest.read start length = some bytes := by
  have read := readInto_shows shows start
    (show (List.replicate length (0 : UInt8)).length < Usize.limit by simpa)
  rw [List.length_replicate] at read
  unfold rangeBytes
  cases around.buffer with
  | some error => simp
  | none =>
      rw [read]
      cases guest.read start length <;> simp

end Guest

theorem Willing.coreFile {around : Surroundings} (willing : Willing around)
    {content : List UInt8} (written : around.dump.output = some content)
    {files : Files} {core : Entry} (stored : files.read core = some content)
    (description format : String) :
    ∃ bundle, coreFile description format around files core = .ok bundle := by
  obtain ⟨data, file, rfl, loadable, opened, holds⟩ :=
    willing.opened content written
  have found : (coreHost around files core).openFile
      (Path.parse (around.showEntry core)) = .ok file := by
    simp only [coreHost, stored, opened]
  have read := readFileLimited_holds found holds
    (show defaultMaxArtifactSize ≠ 0 by decide) loadable.size description
  obtain ⟨bundle, loaded⟩ := loadable.loads (around.showEntry core) format
  exact ⟨bundle, by rw [Acquisition.coreFile, read, ok_bind, loaded]⟩

/-! What becomes of the core. -/

theorem dump_spares (dump : Dump) {files : Files} {core entry : Entry}
    (absent : files.entries core = none) (different : entry ≠ core) :
    files.Spares (dump.run files core) entry := by
  unfold Dump.run
  cases dump.output with
  | none => exact .refl files entry
  | some content =>
      exact (FileSystem.Spares.create absent different).trans
        (.append (files.create_elsewhere different) content)

theorem dump_read {dump : Dump} {content : List UInt8}
    (written : dump.output = some content) (files : Files) (core : Entry) :
    (dump.run files core).read core = some content := by
  simp [Dump.run, written, FileSystem.read]

/-- What the command has written is on the disk, and is a core of the
machine. -/
structure Stored (guest : Guest) (around : Surroundings) (disk : Disk)
    (core : Entry) (content : List UInt8) : Prop where
  written : around.dump.output = some content
  isCore : guest.IsCore content
  read : disk.files.read core = some content

/-- The disk with a core of the machine on it. -/
theorem Guest.Dumps.dumped {guest : Guest} {around : Surroundings}
    (dumps : guest.Dumps around) {text : String}
    (done : around.dump.result = .ok text) {disk : Disk} {core : Entry}
    (absent : disk.files.entries core = none) :
    ∃ (dumped : Disk) (content : List UInt8),
      dumped = ⟨around.dump.run disk.files core, disk.cores + 1,
        disk.publications⟩ ∧
      Stored guest around dumped core content ∧
      ∀ entry, entry ≠ core → disk.files.Spares dumped.files entry := by
  obtain ⟨content, written, isCore⟩ := dumps.written text done
  exact ⟨_, content, rfl,
    ⟨written, isCore, dump_read written disk.files core⟩,
    fun _ different => dump_spares around.dump absent different⟩

theorem remove_spares (disk : Disk) {core entry : Entry}
    (different : entry ≠ core) :
    disk.files.Spares (disk.remove core).files entry := by
  unfold Disk.remove
  cases removed : disk.files.removeFile core with
  | none => exact .refl disk.files entry
  | some files =>
      obtain ⟨_, rfl⟩ := FileSystem.removeFile_eq_some.mp removed
      exact .remove different

/-! The names that a call uses are different ones. -/

/-- What follows a stem has one dot, which is its first character. -/
theorem fileStem_split (name : List Char) :
    fileStem name = name ∨
      ∃ extension, '.' ∉ extension ∧ name = fileStem name ++ '.' :: extension := by
  have split := List.takeWhile_append_dropWhile (p := fun c => c ≠ '.')
    (l := name.reverse)
  unfold fileStem
  cases stem : name.reverse.dropWhile (· ≠ '.') with
  | nil => exact .inl rfl
  | cons dot before =>
      have stopped : ¬ (dot ≠ '.') := by
        have first := List.head?_dropWhile_not (fun c => decide (c ≠ '.'))
          name.reverse
        rw [stem] at first
        simpa using first
      rw [stem, not_not.mp stopped] at split
      by_cases hidden : before = []
      · exact .inl (if_pos hidden)
      · refine .inr ⟨(name.reverse.takeWhile (· ≠ '.')).reverse, ?_, ?_⟩
        · intro member
          have other := List.mem_takeWhile_imp (List.mem_reverse.mp member)
          simp at other
        · have parts := congrArg List.reverse split
          rw [List.reverse_append, List.reverse_cons, List.reverse_reverse,
            List.append_assoc] at parts
          dsimp only
          rw [if_neg hidden]
          exact parts.symm

/-- A stem with a part that has a second dot is a different name. -/
theorem fileStem_append_ne {name rest : List Char} (dotted : '.' ∈ rest) :
    fileStem name ++ '.' :: rest ≠ name := by
  intro same
  rcases fileStem_split name with whole | ⟨extension, dotless, split⟩
  · have lengths := congrArg List.length same
    rw [whole, List.length_append, List.length_cons] at lengths
    omega
  · have tails := List.append_cancel_left (same.trans split)
    rw [(List.cons.inj tails).2] at dotted
    exact dotless dotted

namespace CoreProvider

theorem core_ne_target (around : Surroundings) (sequence : Nat)
    (target : Entry) : core around sequence target ≠ target := by
  intro same
  have names := congrArg Entry.name same
  simp only [core, List.append_assoc] at names
  exact fileStem_append_ne (by simp) names

theorem core_ne_temporary (publisher : Publisher) (around : Surroundings)
    (first second : Nat) (target : Entry) :
    core around first target ≠
      publisher.temporary around.process second target := by
  intro same
  have names := congrArg (fun entry => entry.name.getLast?) same
  have core_last : (core around first target).name.getLast? = some 'e' := by
    rw [core, List.getLast?_append]
    rfl
  have number : Nat.toDigits 10 second ≠ [] := Nat.toDigits_ne_nil
  have digit := Nat.isDigit_of_mem_toDigits (by decide) (by decide)
    (List.getLast_mem number)
  have temporary_last : (publisher.temporary around.process second
      target).name.getLast? = some ((Nat.toDigits 10 second).getLast number) := by
    rw [Publisher.temporary, Publisher.temporaryName, ← List.cons_append,
      List.getLast?_append, List.getLast?_cons_of_ne_nil number,
      List.getLast?_eq_some_getLast number]
    rfl
  rw [core_last, temporary_last] at names
  rw [← Option.some.inj names] at digit
  contradiction

variable (provider : CoreProvider)

theorem finishTemporaryCore_spares (around : Surroundings) {core entry : Entry}
    (disk : Disk) (result : Result Unit) (different : entry ≠ core) :
    disk.files.Spares
      (provider.finishTemporaryCore around core disk result).1.files entry := by
  cases result with
  | error error => exact remove_spares disk different
  | ok _ =>
      unfold finishTemporaryCore
      cases removed : disk.files.removeFile core with
      | none => exact .refl disk.files entry
      | some files =>
          obtain ⟨_, rfl⟩ := FileSystem.removeFile_eq_some.mp removed
          exact .remove different

theorem finishTemporaryCore_eq_ok (around : Surroundings) (core : Entry)
    (disk : Disk) (result : Result Unit) :
    (provider.finishTemporaryCore around core disk result).2 = .ok () ↔
      result = .ok () ∧ disk.files.entries core ≠ none := by
  cases result with
  | error error => simp [finishTemporaryCore]
  | ok _ =>
      unfold finishTemporaryCore
      cases removed : disk.files.removeFile core with
      | none => simp [FileSystem.removeFile_eq_none.mp removed]
      | some files => simp [(FileSystem.removeFile_eq_some.mp removed).1]

/-- With a core the call goes on. -/
theorem withCore_asked {around : Surroundings} {disk : Disk}
    {destination : Destination} {target : Entry}
    (asks : Asks around disk destination target) {text : String}
    (done : around.dump.result = .ok text) (value : α)
    (make : Disk → Entry → Disk × α × Result Unit) {dumped : Disk}
    (dumping : dumped =
      ⟨around.dump.run disk.files (core around disk.cores target),
        disk.cores + 1, disk.publications⟩) :
    provider.withCore around disk destination value make =
      ⟨(provider.finishTemporaryCore around (core around disk.cores target)
          (make dumped (core around disk.cores target)).1
          (make dumped (core around disk.cores target)).2.2).1,
        some (core around disk.cores target),
        (make dumped (core around disk.cores target)).2.1,
        (provider.finishTemporaryCore around (core around disk.cores target)
          (make dumped (core around disk.cores target)).1
          (make dumped (core around disk.cores target)).2.2).2⟩ := by
  have asked := @dumpCore_ready provider.name around
    { disk with cores := disk.cores + 1 } _ asks.ready
  subst dumping
  unfold withCore
  rw [provider.temporaryCorePath_asks asks]
  dsimp only
  rw [asked, done]
  rfl

/-- A call ends before there is a core, with nothing changed but what the
command left under the name of the core, or comes to a core. -/
theorem withCore_named (around : Surroundings) (disk : Disk)
    {destination : Destination} {target : Entry}
    (named : destination.entry = some target) (value : α)
    (make : Disk → Entry → Disk × α × Result Unit) :
    ((∃ error, (provider.withCore around disk destination value make).value =
        (value, .error error)) ∧
      ∀ entry, entry ≠ core around disk.cores target →
        disk.files.Spares
          (provider.withCore around disk destination value make).disk.files
          entry) ∨
    ∃ text, around.dump.result = .ok text ∧
      Asks around disk destination target := by
  unfold withCore temporaryCorePath
  cases room : Usize.checkedAdd disk.cores 1 with
  | none => exact .inl ⟨⟨_, rfl⟩, fun entry _ => .refl disk.files entry⟩
  | some next =>
      obtain ⟨rfl, fits⟩ := Usize.checkedAdd_eq_some.mp room
      cases allocated : around.coreAllocation with
      | some error =>
          exact .inl ⟨⟨_, rfl⟩, fun entry _ => .refl disk.files entry⟩
      | none =>
          rw [named]
          dsimp only
          by_cases ready : Ready around disk.files
              (core around disk.cores target)
          · have asked := @dumpCore_ready provider.name around
              { disk with cores := disk.cores + 1 } _ ready
            rw [asked]
            cases result : around.dump.result with
            | error error =>
                exact .inl ⟨⟨error, rfl⟩, fun entry different =>
                  dump_spares around.dump ready.absent different⟩
            | ok text =>
                exact .inr ⟨text, rfl, fits, allocated, named, ready⟩
          · obtain ⟨error, failed⟩ := @dumpCore_unready provider.name around
              { disk with cores := disk.cores + 1 } _ ready
            rw [failed]
            exact .inl ⟨⟨error, rfl⟩, fun entry _ => .refl disk.files entry⟩

theorem publishRange_publishes (around : Surroundings) (disk : Disk)
    {destination : Destination} {target : Entry}
    (named : destination.entry = some target) (bytes : List UInt8) :
    Publishes disk.files
      (provider.publishRange around disk destination bytes).1.files
      (provider.publisher.temporary around.process disk.publications target)
      target bytes
      ((provider.publishRange around disk destination bytes).2 = .ok ()) := by
  have published := provider.publisher.publish_publishes around.process
    around.publication disk.files disk.publications named bytes
  have same : (provider.publishRange around disk destination bytes).2 =
      .ok () ↔ (provider.publisher.publish around.process around.publication
        disk.files disk.publications destination bytes).2.2 = .ok () :=
    mapError_eq_ok
  rw [same]
  exact published

variable {provider}

/-- The core is read as the loaders of cores read it. -/
def ReadsCores (provider : CoreProvider) : Prop :=
  ∃ description format, provider.load = coreFile description format

theorem xen_readsCores : xen.ReadsCores := ⟨_, _, rfl⟩

theorem virtualBox_readsCores : virtualBox.ReadsCores := ⟨_, _, rfl⟩

variable {guest : Guest} {around : Surroundings} {disk : Disk} {core : Entry}
  {content : List UInt8} {start : Gpa} {length : Nat}

/-- Only the bytes of the machine come to be published. -/
theorem extractRange_cases (loads : provider.ReadsCores)
    (dumps : guest.Dumps around)
    (stored : Stored guest around disk core content)
    (bounded : length < Usize.limit) (destination : Destination) :
    (∃ error, provider.extractRange around disk core destination start length =
        (disk, .error error)) ∨
      ∃ bytes, guest.read start length = some bytes ∧
        provider.extractRange around disk core destination start length =
          provider.publishRange around disk destination bytes := by
  obtain ⟨description, format, loads⟩ := loads
  unfold extractRange
  rw [loads]
  cases loaded : coreFile description format around disk.files core with
  | error error => exact .inl ⟨error, rfl⟩
  | ok bundle =>
      have shows := Guest.coreFile_shows dumps stored.isCore stored.read loaded
      dsimp only
      split
      · rename_i error _
        exact .inl ⟨error, rfl⟩
      · rename_i bytes read
        have held := ((Guest.rangeBytes_eq_ok shows _ bounded).mp read).2
        exact .inr ⟨bytes, held, rfl⟩

theorem extractRange_willing (loads : provider.ReadsCores)
    (dumps : guest.Dumps around) (willing : Willing around)
    (stored : Stored guest around disk core content)
    (bounded : length < Usize.limit) (destination : Destination)
    {bytes : List UInt8} (held : guest.read start length = some bytes) :
    provider.extractRange around disk core destination start length =
      provider.publishRange around disk destination bytes := by
  obtain ⟨description, format, loads⟩ := loads
  obtain ⟨bundle, loaded⟩ :=
    willing.coreFile stored.written stored.read description format
  have shows := Guest.coreFile_shows dumps stored.isCore stored.read loaded
  unfold extractRange
  rw [loads, loaded]
  dsimp only
  rw [(Guest.rangeBytes_eq_ok shows _ bounded).mpr ⟨willing.buffer, held⟩]

end CoreProvider

/-- What a call that goes through a core comes to: nothing but its own names is
touched, and the destination is as it was found or holds the range. -/
structure Acquires (before after : Files) (core temporary target : Entry)
    (range : Option (List UInt8)) (done : Prop) : Prop where
  others : ∀ entry, entry ≠ core → entry ≠ temporary → entry ≠ target →
    before.Spares after entry
  complete : before.Spares after target ∨ before.entries target = none ∧
    ∃ bytes, range = some bytes ∧ after.read target = some bytes
  done : done → before.entries target = none ∧
    (∃ bytes, range = some bytes ∧ after.read target = some bytes) ∧
    after.entries core = none ∧ after.entries temporary = none

namespace CoreProvider

/-- Nothing is in the way of the names that a call uses. -/
structure Room (provider : CoreProvider) (around : Surroundings) (disk : Disk)
    (target : Entry) : Prop where
  cores : disk.cores + 1 < Usize.limit
  publications : disk.publications + 1 < Usize.limit
  targetFree : disk.files.entries target = none
  coreFree : disk.files.entries (core around disk.cores target) = none
  temporaryFree : disk.files.entries (provider.publisher.temporary
    around.process disk.publications target) = none

variable {provider : CoreProvider} {guest : Guest} {around : Surroundings}
  {disk : Disk} {destination : Destination} {target : Entry}

theorem savePhysicalRange_acquires (loads : provider.ReadsCores)
    (dumps : guest.Dumps around) (named : destination.entry = some target)
    (start : Gpa) (length : UInt64) :
    Acquires disk.files
      (provider.savePhysicalRange around disk destination start
        length).disk.files
      (core around disk.cores target)
      (provider.publisher.temporary around.process disk.publications target)
      target (guest.read start length.toNat)
      ((provider.savePhysicalRange around disk destination start
        length).value.2 = .ok ()) := by
  have nameApart := core_ne_target around disk.cores target
  have temporaryApart := core_ne_temporary provider.publisher around disk.cores
    disk.publications target
  unfold savePhysicalRange
  cases checked : checkRange provider.name start length with
  | error error =>
      exact ⟨fun entry _ _ _ => .refl disk.files entry,
        .inl (.refl disk.files target), nofun⟩
  | ok _ =>
      dsimp only
      rcases provider.withCore_named around disk named () _ with
        ⟨⟨error, failed⟩, spares⟩ | ⟨text, done, asks⟩
      · exact ⟨fun entry apart _ _ => spares entry apart,
          .inl (spares target nameApart.symm), fun ok => by
            rw [failed] at ok
            contradiction⟩
      · obtain ⟨dumped, content, dumping, stored, early⟩ :=
          dumps.dumped done asks.ready.absent
        rw [provider.withCore_asked asks done () _ dumping]
        dsimp only
        rcases extractRange_cases loads dumps stored length.toNat_lt destination
          with ⟨error, failed⟩ | ⟨bytes, held, published⟩
        · rw [failed]
          have late {entry : Entry}
              (apart : entry ≠ core around disk.cores target) :=
            provider.finishTemporaryCore_spares around dumped (.error error)
              apart
          exact ⟨fun entry apart _ _ => (early entry apart).trans (late apart),
            .inl ((early target nameApart.symm).trans (late nameApart.symm)), nofun⟩
        · have publishes := provider.publishRange_publishes around dumped named
            bytes
          rw [show dumped.publications = disk.publications by rw [dumping]]
            at publishes
          rw [published]
          generalize provider.publishRange around dumped destination bytes =
            made at publishes ⊢
          have late {entry : Entry}
              (apart : entry ≠ core around disk.cores target) :=
            provider.finishTemporaryCore_spares around made.1 made.2 apart
          refine ⟨fun entry apart other away => ((early entry apart).trans
            (publishes.others entry other away)).trans (late apart), ?_, ?_⟩
          · rcases publishes.complete with kept | ⟨free, complete⟩
            · exact .inl (((early target nameApart.symm).trans kept).trans
                (late nameApart.symm))
            · exact .inr ⟨(early target nameApart.symm).absent_iff.mp free, bytes, held,
                (late nameApart.symm).read.trans complete⟩
          · intro ok
            obtain ⟨free, complete, removed⟩ := publishes.done
              ((provider.finishTemporaryCore_eq_ok around _ _ _).mp ok).1
            exact ⟨(early target nameApart.symm).absent_iff.mp free,
              ⟨bytes, held, (late nameApart.symm).read.trans complete⟩,
              provider.finishTemporaryCore_gone _ _ _,
              (late temporaryApart.symm).absent removed⟩

theorem asks_of_room (willing : Willing around)
    (named : destination.entry = some target)
    (room : provider.Room around disk target) :
    Asks around disk destination target :=
  ⟨room.cores, willing.coreAllocation, named, willing.inspectCore,
    room.coreFree, willing.pathIsUtf8, willing.arguments⟩

theorem savePhysicalRange_succeeds (loads : provider.ReadsCores)
    (dumps : guest.Dumps around) (willing : Willing around)
    (named : destination.entry = some target)
    (room : provider.Room around disk target) {start : Gpa} {length : UInt64}
    (nonzero : length ≠ 0)
    (fits : start.raw.toNat + length.toNat < 2 ^ 64) {bytes : List UInt8}
    (held : guest.read start length.toNat = some bytes) :
    (provider.savePhysicalRange around disk destination start
      length).value.2 = .ok () := by
  have nameApart := core_ne_target around disk.cores target
  have temporaryApart := core_ne_temporary provider.publisher around disk.cores
    disk.publications target
  have asks := asks_of_room willing named room
  obtain ⟨text, done⟩ := willing.dumped
  have checked : checkRange provider.name start length = .ok () :=
    checkRange_eq_ok.mpr ⟨nonzero, fits⟩
  obtain ⟨dumped, content, dumping, stored, early⟩ := dumps.dumped done asks.ready.absent
  have numbered : dumped.publications = disk.publications := by rw [dumping]
  have extracted := extractRange_willing loads dumps willing stored length.toNat_lt
    destination held
  have published : (provider.publishRange around dumped destination bytes).2 =
      .ok () := by
    refine mapError_eq_ok.mpr ?_
    rw [willing.publication, numbered]
    exact provider.publisher.publish_succeeds around.process named
      ((early target nameApart.symm).absent room.targetFree) room.publications
      ((early _ temporaryApart.symm).absent room.temporaryFree) bytes
  have publishes := provider.publishRange_publishes around dumped named bytes
  rw [numbered] at publishes
  have present : (provider.publishRange around dumped destination
      bytes).1.files.entries (core around disk.cores target) ≠ none := by
    have kept := publishes.others _ temporaryApart nameApart
    intro gone
    simpa [FileSystem.read, kept.absent_iff.mp gone] using stored.read
  unfold savePhysicalRange
  rw [checked]
  dsimp only
  rw [provider.withCore_asked asks done () _ dumping]
  dsimp only
  rw [extracted]
  exact (provider.finishTemporaryCore_eq_ok around _ _ _).mpr
    ⟨published, present⟩

/-- A range that Xen or VirtualBox reports as saved is in the destination with
the bytes that the machine had when its core was dumped. Whatever happens, the
destination is as it was found or complete, and where nothing is in the way the
call succeeds exactly for the ranges of the machine. -/
theorem linked_range_exact {provider : CoreProvider}
    (known : provider = xen ∨ provider = virtualBox) {guest : Guest}
    {around : Surroundings} (dumps : guest.Dumps around) (disk : Disk)
    {destination : Destination} {target : Entry}
    (named : destination.entry = some target) (start : Gpa) (length : UInt64) :
    Acquires disk.files
        (provider.savePhysicalRange around disk destination start
          length).disk.files
        (core around disk.cores target)
        (provider.publisher.temporary around.process disk.publications target)
        target (guest.read start length.toNat)
        ((provider.savePhysicalRange around disk destination start
          length).value.2 = .ok ()) ∧
      (Willing around → provider.Room around disk target →
        ((provider.savePhysicalRange around disk destination start
            length).value.2 = .ok () ↔
          length ≠ 0 ∧ start.raw.toNat + length.toNat < 2 ^ 64 ∧
            (guest.read start length.toNat).isSome)) := by
  have loads : provider.ReadsCores := by
    rcases known with rfl | rfl
    · exact xen_readsCores
    · exact virtualBox_readsCores
  have acquires :=
    @savePhysicalRange_acquires provider guest around disk destination target
      loads dumps named start length
  refine ⟨acquires, fun willing room => ⟨fun saved => ?_, ?_⟩⟩
  · obtain ⟨_, ⟨bytes, held, _⟩, _⟩ := acquires.done saved
    have checked : ∃ result, checkRange provider.name start length =
        .ok result := by
      unfold savePhysicalRange at saved
      cases found : checkRange provider.name start length with
      | error error =>
          rw [found] at saved
          contradiction
      | ok result => exact ⟨result, rfl⟩
    obtain ⟨_, checked⟩ := checked
    obtain ⟨nonzero, fits⟩ := checkRange_eq_ok.mp checked
    exact ⟨nonzero, fits, Option.isSome_of_eq_some held⟩
  · rintro ⟨nonzero, fits, present⟩
    obtain ⟨bytes, held⟩ := Option.isSome_iff_exists.mp present
    exact savePhysicalRange_succeeds loads dumps willing named room nonzero fits
      held

end CoreProvider

/-! A machine whose core lists its two pieces of memory from the top down, on a
host where nothing fails. -/

/-- Sorting the segments does not change the memory. -/
theorem byteAt_sorted {segments : List SnapshotSegment}
    (apart : segments.Pairwise Artifact.Apart) (address : Nat) :
    SnapshotBundle.byteAt (sortByStart segments) address =
      SnapshotBundle.byteAt segments address := by
  have disjoint : segments.Pairwise fun left right =>
      ¬ Meet SnapshotSegment.lower SnapshotSegment.upper left right :=
    apart.imp fun apart meet => apart.not_overlap meet.overlap
  have sorted := (sortByStart_perm segments).pairwise_iff
    (fun {_ _} apart meet => apart (by
      obtain ⟨point, left, right⟩ := meet
      exact ⟨point, right, left⟩)) |>.mpr disjoint
  refine Sparse.lookup_eq_of_same_parts ?_ ?_ ?_ address
  · simpa only [funext SnapshotBundle.sparse_upper] using sorted
  · simpa only [funext SnapshotBundle.sparse_upper] using disjoint
  · exact fun part _ => mem_sortByStart

/-- The cores of the fixtures are cores of what they were made from. -/
theorem coreImage_isCore {segments : List SnapshotSegment}
    (present : segments ≠ []) (count : segments.length ≤ 65535)
    (apart : segments.Pairwise Artifact.Apart)
    (within : (contents segments).length ≤ defaultMaxArtifactSize.toNat) :
    (Guest.mk fun address =>
      SnapshotBundle.byteAt segments address.toNat).IsCore
        (coreImage segments) where
  magic := List.prefix_append _ _
  describes := by
    intro source data format bundle same loaded address
    rw [fromElf_coreImage source format present count apart (by decide) within
      same] at loaded
    rw [← Except.ok.inj loaded]
    exact byteAt_sorted apart address.toNat

def twoPieces : List SnapshotSegment :=
  [.new ⟨0x5000⟩ ⟨[9], by decide⟩, .new ⟨0x3000⟩ ⟨[5, 6], by decide⟩]

theorem twoPieces_apart : twoPieces.Pairwise Artifact.Apart :=
  List.pairwise_pair.mpr (.inr (show (0x3002 : Nat) ≤ 0x5000 by decide))

def twoPiecesCore : Buffer where
  bytes := coreImage twoPieces
  length_lt := by decide +kernel

def twoPiecesGuest : Guest where
  memory := fun address => SnapshotBundle.byteAt twoPieces address.toNat

def quietHost (core : Buffer) : Surroundings where
  process := 7
  clock := .ok 5
  showEntry := fun entry => String.ofList entry.name
  nameIsUtf8 := true
  pathIsUtf8 := true
  coreAllocation := none
  inspectDestination := none
  inspectCore := none
  arguments := none
  dump := ⟨some core.bytes, .ok ""⟩
  openCore := fun content =>
    match Buffer.allocate content with
    | none => .error ""
    | some contents => .ok (diskFile contents)
  buffer := none
  publication := Publisher.noFaults

theorem quietHost_dumps {guest : Guest} {core : Buffer}
    (isCore : guest.IsCore core.bytes) : guest.Dumps (quietHost core) where
  written := fun _ _ => ⟨core.bytes, rfl, isCore⟩
  opened := by
    intro content file opened
    simp only [quietHost] at opened
    cases allocated : Buffer.allocate content with
    | none =>
        rw [allocated] at opened
        contradiction
    | some contents =>
        rw [allocated] at opened
        rw [← Except.ok.inj opened, ← Buffer.allocate_eq_some.mp allocated]
        rfl

theorem quietHost_willing {core : Buffer} (loadable : Loadable core) :
    Willing (quietHost core) where
  dumped := ⟨"", rfl⟩
  opened := by
    rintro _ ⟨⟩
    have allocated : Buffer.allocate core.bytes = some core :=
      Buffer.allocate_eq_some.mpr rfl
    refine ⟨core, diskFile core, rfl, loadable, ?_, diskFile_holds _⟩
    simp only [quietHost, allocated]
  pathIsUtf8 := rfl
  coreAllocation := rfl
  inspectCore := rfl
  arguments := rfl
  buffer := rfl
  publication := rfl

theorem twoPieces_dumps : twoPiecesGuest.Dumps (quietHost twoPiecesCore) :=
  quietHost_dumps (coreImage_isCore (List.cons_ne_nil _ _) (by decide)
    twoPieces_apart (by decide +kernel))

theorem twoPieces_willing : Willing (quietHost twoPiecesCore) :=
  quietHost_willing
    ⟨by decide +kernel, fun source format => ⟨_, fromElf_coreImage source format
      (List.cons_ne_nil _ _) (by decide) twoPieces_apart (by decide)
      (by decide +kernel) rfl⟩⟩

def toOut : Destination := ⟨"out.bin", 0, some Publisher.outBin.name⟩

theorem linked_range_exact_two_bytes :
    (CoreProvider.xen.savePhysicalRange (quietHost twoPiecesCore) ⟨.empty, 0, 0⟩
        toOut ⟨0x3000⟩ 2).value.2 = .ok () ∧
      (CoreProvider.xen.savePhysicalRange (quietHost twoPiecesCore) ⟨.empty, 0, 0⟩
        toOut ⟨0x3000⟩ 2).disk.files.read Publisher.outBin = some [5, 6] := by
  have both := CoreProvider.linked_range_exact (.inl rfl) twoPieces_dumps
    ⟨.empty, 0, 0⟩ (show toOut.entry = some Publisher.outBin from rfl) ⟨0x3000⟩ 2
  have held : twoPiecesGuest.read ⟨0x3000⟩ (2 : UInt64).toNat = some [5, 6] := by
    decide
  have saved := (both.2 twoPieces_willing
    ⟨by decide, by decide, rfl, rfl, rfl⟩).mpr
      ⟨by decide, by decide, Option.isSome_of_eq_some held⟩
  obtain ⟨bytes, same, found⟩ := (both.1.done saved).2.1
  rw [held] at same
  exact ⟨saved, found.trans same.symm⟩

/-! Reading memory through a core. -/

namespace CoreProvider

variable {guest : Guest} {around : Surroundings}

/-- What the session does with a core that has been dumped for a read. -/
def readCore (around : Surroundings) (address : Gpa) (output : List UInt8)
    (disk : Disk) (core : Entry) : Disk × List UInt8 × Result Unit :=
  match elfVmcoreFile around disk.files core with
  | .error error => (disk, output, .error error)
  | .ok bundle => (disk, bundle.readInto address output)

theorem readCore_cases (dumps : guest.Dumps around) {disk : Disk} {core : Entry}
    {content : List UInt8} (stored : Stored guest around disk core content)
    (address : Gpa)
    {output : List UInt8} (bounded : output.length < Usize.limit) :
    (∃ error, readCore around address output disk core =
        (disk, output, .error error)) ∨
      ∃ bytes, guest.read address output.length = some bytes ∧
        readCore around address output disk core = (disk, bytes, .ok ()) := by
  unfold readCore
  cases loaded : elfVmcoreFile around disk.files core with
  | error error => exact .inl ⟨error, rfl⟩
  | ok bundle =>
      have shows := Guest.coreFile_shows dumps stored.isCore stored.read loaded
      have read := Guest.readInto_shows shows address bounded
      dsimp only
      rw [read]
      cases held : guest.read address output.length with
      | none => exact .inl ⟨_, rfl⟩
      | some bytes => exact .inr ⟨bytes, rfl, rfl⟩

theorem readCore_willing (dumps : guest.Dumps around)
    (willing : Willing around) {disk : Disk} {core : Entry}
    {content : List UInt8} (stored : Stored guest around disk core content)
    {address : Gpa} {output bytes : List UInt8}
    (bounded : output.length < Usize.limit)
    (held : guest.read address output.length = some bytes) :
    readCore around address output disk core = (disk, bytes, .ok ()) := by
  obtain ⟨bundle, loaded⟩ := willing.coreFile stored.written stored.read
    "ELF artifact" "elf-vmcore"
  have shows := Guest.coreFile_shows dumps stored.isCore stored.read loaded
  have read := Guest.readInto_shows shows address bounded
  rw [held] at read
  unfold readCore elfVmcoreFile
  rw [loaded]
  dsimp only
  rw [read]

/-- The call is the frame around what is done with the core. -/
theorem readInto_nonempty (disk : Disk) (destination : Destination)
    (address : Gpa) {output : List UInt8} (nonempty : output ≠ []) :
    readInto around disk none (.ok destination) address output =
      virtualBox.withCore around disk destination output
        (readCore around address output) :=
  if_neg nonempty

theorem readInto_succeeds (dumps : guest.Dumps around)
    (willing : Willing around) {disk : Disk} {destination : Destination}
    {target : Entry} (named : destination.entry = some target)
    (room : disk.cores + 1 < Usize.limit)
    (free : disk.files.entries (core around disk.cores target) = none)
    {address : Gpa} {output bytes : List UInt8} (nonempty : output ≠ [])
    (bounded : output.length < Usize.limit)
    (held : guest.read address output.length = some bytes) :
    (readInto around disk none (.ok destination) address output).value.2 =
      .ok () := by
  have asks : Asks around disk destination target :=
    ⟨room, willing.coreAllocation, named, willing.inspectCore, free,
      willing.pathIsUtf8, willing.arguments⟩
  obtain ⟨text, done⟩ := willing.dumped
  obtain ⟨dumped, content, dumping, stored, _⟩ := dumps.dumped done asks.ready.absent
  have present : dumped.files.entries (core around disk.cores target) ≠
      none := by
    intro gone
    simpa [FileSystem.read, gone] using stored.read
  rw [readInto_nonempty disk destination address nonempty,
    virtualBox.withCore_asked asks done output _ dumping]
  dsimp only
  rw [readCore_willing dumps willing stored bounded held]
  exact (virtualBox.finishTemporaryCore_eq_ok around _ _ _).mpr ⟨rfl, present⟩

/-- Whatever fails, a read that has something to read gives what the core
holds or nothing, and leaves no trace where it succeeds. -/
theorem readInto_traceless (dumps : guest.Dumps around) (disk : Disk)
    {destination : Destination} {target : Entry}
    (named : destination.entry = some target) (address : Gpa)
    {output : List UInt8} (bounded : output.length < Usize.limit)
    (nonempty : output ≠ []) {outcome : Outcome (List UInt8 × Result Unit)}
    (reads : readInto around disk none (.ok destination) address output =
      outcome) :
    (∀ entry, entry ≠ core around disk.cores target →
      disk.files.Spares outcome.disk.files entry) ∧
    (outcome.value.1 = output ∨
      guest.read address output.length = some outcome.value.1) ∧
    (outcome.value.2 = .ok () →
      guest.read address output.length = some outcome.value.1 ∧
        ∀ entry, disk.files.Spares outcome.disk.files entry) := by
  rw [readInto_nonempty disk destination address nonempty] at reads
  subst reads
  rcases virtualBox.withCore_named around disk named output
      (readCore around address output) with
    ⟨⟨error, failed⟩, spares⟩ | ⟨text, done, asks⟩
  · rw [failed]
    exact ⟨spares, .inl rfl, nofun⟩
  · obtain ⟨dumped, content, dumping, stored, early⟩ :=
      dumps.dumped done asks.ready.absent
    rw [virtualBox.withCore_asked asks done output _ dumping]
    dsimp only
    have spares {result : Result Unit} (entry : Entry)
        (apart : entry ≠ core around disk.cores target) :
        disk.files.Spares (virtualBox.finishTemporaryCore around
          (core around disk.cores target) dumped result).1.files entry :=
      (early entry apart).trans
        (virtualBox.finishTemporaryCore_spares around dumped result apart)
    rcases readCore_cases dumps stored address bounded with
      ⟨error, failed⟩ | ⟨bytes, held, read⟩
    · rw [failed]
      exact ⟨spares, .inl rfl, nofun⟩
    · rw [read]
      refine ⟨spares, .inr held, fun _ => ⟨held, fun entry => ?_⟩⟩
      by_cases same : entry = core around disk.cores target
      · subst same
        refine ⟨?_, fun _ => virtualBox.finishTemporaryCore_gone _ _ _⟩
        intro node found
        rw [asks.ready.absent] at found
        contradiction
      · exact spares entry same

/-- A read of VirtualBox without a direct transport gives the bytes that the
machine had at one moment, when its core was dumped, and a read that succeeds
leaves no trace on the disk. -/
theorem live_read_at_once (dumps : guest.Dumps around) (disk : Disk)
    {destination : Destination} {target : Entry}
    (named : destination.entry = some target) (address : Gpa)
    {output : List UInt8} (bounded : output.length < Usize.limit)
    {outcome : Outcome (List UInt8 × Result Unit)}
    (reads : readInto around disk none (.ok destination) address output =
      outcome) :
    (∀ entry, entry ≠ core around disk.cores target →
      disk.files.Spares outcome.disk.files entry) ∧
    (outcome.value.1 = output ∨
      guest.read address output.length = some outcome.value.1) ∧
    (outcome.value.2 = .ok () →
      guest.read address output.length = some outcome.value.1 ∧
        ∀ entry, disk.files.Spares outcome.disk.files entry) ∧
    (Willing around → disk.cores + 1 < Usize.limit →
      disk.files.entries (core around disk.cores target) = none →
      (outcome.value.2 = .ok () ↔
        (guest.read address output.length).isSome)) := by
  subst reads
  by_cases nonempty : output = []
  · subst nonempty
    exact ⟨fun entry _ => .refl disk.files entry, .inl rfl,
      fun _ => ⟨rfl, fun entry => .refl disk.files entry⟩,
      fun _ _ _ => iff_of_true rfl rfl⟩
  · obtain ⟨spared, given, told⟩ := readInto_traceless dumps disk named address
      bounded nonempty rfl
    refine ⟨spared, given, told, fun willing room free =>
      ⟨fun ok => Option.isSome_of_eq_some (told ok).1, fun present => ?_⟩⟩
    obtain ⟨bytes, held⟩ := Option.isSome_iff_exists.mp present
    exact readInto_succeeds dumps willing named room free nonempty bounded held

theorem live_read_at_once_two_bytes :
    ∃ outcome : Outcome (List UInt8 × Result Unit),
      readInto (quietHost twoPiecesCore) ⟨.empty, 0, 0⟩ none (.ok toOut) ⟨0x3000⟩
        [0, 0] = outcome ∧ outcome.value = ([5, 6], .ok ()) := by
  refine ⟨_, rfl, ?_⟩
  have all := live_read_at_once twoPieces_dumps ⟨.empty, 0, 0⟩
    (show toOut.entry = some Publisher.outBin from rfl) ⟨0x3000⟩
    (show [(0 : UInt8), 0].length < Usize.limit by decide) rfl
  have held : twoPiecesGuest.read ⟨0x3000⟩ [(0 : UInt8), 0].length = some [5, 6] := by
    decide
  have read := (all.2.2.2 twoPieces_willing (by decide) rfl).mpr
    (Option.isSome_of_eq_some held)
  have bytes := (all.2.2.1 read).1
  rw [held] at bytes
  exact Prod.ext (Option.some.inj bytes).symm read

end CoreProvider

end LibVmi.Acquisition
